import LogTint.Document.Identity

/-!
# Errors

Sequences never cause an error, however malformed.  Errors concern the life of
a document, the settings, or a computation that did not finish.
-/

namespace LogTint

/-- What can go wrong when a document is highlighted. -/
inductive HighlightError where
  | documentNotFound (id : DocumentId)
  | documentClosed (id : DocumentId)
  | invalidConfiguration (reason : String)
  | computationFailed (reason : String)
deriving DecidableEq

namespace HighlightError

def message : HighlightError → String
  | .documentNotFound id => "Document " ++ id.render ++ " not found"
  | .documentClosed id => "Document " ++ id.render ++ " closed"
  | .invalidConfiguration reason => "Invalid configuration: " ++ reason
  | .computationFailed reason => "Highlight computation failed: " ++ reason

/-- Whether the error concerns the life of a document. -/
def isDocumentError : HighlightError → Bool
  | .documentNotFound _ | .documentClosed _ => true
  | .invalidConfiguration _ | .computationFailed _ => false

end HighlightError

end LogTint
