import LogTint.Document.Identity
import LogTint.Highlight.Highlights
import LogTint.Settings.Settings

/-!
# What hosts do and what they are told

A host owns documents, hands them to a scheduler and tells it about edits.
Everything a host can do is an action, so that a document of the host may do
it too while the scheduler is reading it.
-/

namespace LogTint

/-- Number of a document of the host, in order of creation. -/
abbrev SourceId := Nat

inductive EditOutcome where
  /-- A computation was armed. -/
  | scheduled
  /-- The document is over the ceiling, so nothing was armed. -/
  | bypassed
deriving DecidableEq

structure DocumentInfo where
  id : DocumentId
  state : DocumentState
  /-- Number of edits seen so far. -/
  generation : Nat
deriving DecidableEq

/-- Highlights together with the text they belong to and the edit they
answer. -/
structure Publication where
  generation : Nat
  text : Text
  highlights : Highlights
deriving DecidableEq

/-- Something that a host can do at once. -/
inductive Action where
  /-- Replaces the text of a document, without telling the scheduler. -/
  | replace (source : SourceId) (text : Text)
  /-- Adds to the text of a document, without telling the scheduler. -/
  | append (source : SourceId) (text : Text)
  /-- Gives up a document. -/
  | release (source : SourceId)
  | register (source : SourceId)
  | edit (id : DocumentId)
  /-- Begins to highlight a document and does not wait for the result. -/
  | startNow (id : DocumentId)
  | unregister (id : DocumentId)
  /-- Stops tracking the documents that were given up. -/
  | sweep
  | shutdown
  | reconfigure (settings : Settings)
  | info (id : DocumentId)
  | contains (id : DocumentId)
  | settings
  | clearCache
  | describe
  /-- Gives up the scheduler. -/
  | dropScheduler
deriving DecidableEq

namespace Action

/-- The registered document that an action names. -/
def document? : Action → Option DocumentId
  | .edit id | .startNow id | .unregister id | .info id | .contains id => some id
  | _ => none

/-- Whether an action asks something of the scheduler. -/
def needsScheduler : Action → Bool
  | .replace _ _ | .append _ _ | .release _ | .dropScheduler => false
  | _ => true

end Action

inductive Answer where
  | nothing
  | done
  | flag (value : Bool)
  | count (value : Nat)
  | registered (id : DocumentId)
  | noDocument
  | noScheduler
  | outcome (outcome : EditOutcome)
  | outcomes (outcomes : List (DocumentId × EditOutcome))
  | failure (error : HighlightError)
  | info (info : Option DocumentInfo)
  | settings (settings : Settings)
  | description (text : String)
  | published (publication : Option Publication)
deriving DecidableEq

inductive Event where
  /-- Fresh highlights were delivered. -/
  | highlights (id : DocumentId) (publication : Publication)
  /-- A run found its document over the ceiling. -/
  | bypass (id : DocumentId) (chars : Nat)
  /-- A run failed. -/
  | error (id : DocumentId) (error : HighlightError)
  /-- A document is no longer tracked. -/
  | closed (id : DocumentId)
  /-- A document acted while it was being read. -/
  | acted (action : Action) (answer : Answer)
  /-- A call that was not waited for returned. -/
  | returned (id : DocumentId) (answer : Answer)
deriving DecidableEq

/-- The number of the document that an event is filed under; zero for actions
that name none. -/
def Event.documentNumber : Event → Nat
  | .highlights id _ | .bypass id _ | .error id _ | .closed id | .returned id _ =>
      id.number
  | .acted action _ => (action.document?.map (·.number)).getD 0

end LogTint
