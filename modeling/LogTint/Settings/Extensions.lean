import LogTint.Settings.Path
import LogTint.Text.Blank

/-!
# Sets of file extensions

Extensions are kept without their dot and in small letters, in ascending order
and each once.
-/

namespace LogTint

/-- A set of file extensions in ascending order. -/
structure Extensions where
  members : List Text
deriving DecidableEq

namespace Extensions

/-- Adds a text to an ascending list unless it is there. -/
def insertSorted (extension : Text) : List Text → List Text
  | [] => [extension]
  | member :: later =>
      if extension = member then member :: later
      else if extension < member then extension :: member :: later
      else member :: insertSorted extension later

/-- The set with one more extension, which is taken as it is. -/
def insert (extensions : Extensions) (extension : Text) : Extensions :=
  ⟨insertSorted extension extensions.members⟩

/-- The set of the given extensions, each taken as it is. -/
def ofList (entries : List Text) : Extensions :=
  entries.foldl insert ⟨[]⟩

/-- The extension that is used when none is given. -/
def fallback : Text := ['l', 'o', 'g']

/-- An entry as it is kept: trimmed, then without the dots before it, and with
its ASCII capitals made small. -/
def normalize (entry : Text) : Text :=
  Text.lowercase (entry.trim.dropWhile (· = '.'))

/-- The set that a list of entries asks for.  Entries with nothing left are
dropped; a list with nothing left asks for the fallback. -/
def ofEntries (entries : List Text) : Extensions :=
  let kept := (entries.map normalize).filter (!·.isEmpty)
  if kept.isEmpty then ofList [fallback] else ofList kept

def contains (extensions : Extensions) (extension : Text) : Bool :=
  extensions.members.contains extension

/-- No file has an extension that is empty or holds a dot or a separator. -/
def isInvalid (extension : Text) : Bool :=
  extension.isEmpty ||
    extension.any fun char => char = '.' || char = '/' || char = '\\'

/-- The first member that no file can have. -/
def invalid? (extensions : Extensions) : Option Text :=
  extensions.members.find? isInvalid

/-- Whether the extension of a path is in the set, ASCII capitals aside.  An
extension that is no text is in no set. -/
def matchesPath (extensions : Extensions) (path : Path) : Bool :=
  match path.extension?.bind Text.ofBytes? with
  | some extension => extensions.contains extension.lowercase
  | none => false

end Extensions

end LogTint
