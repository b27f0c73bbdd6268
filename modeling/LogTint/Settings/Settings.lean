import LogTint.Error
import LogTint.Highlight.Config
import LogTint.Settings.Extensions
import LogTint.Settings.Theme
import LogTint.Text.Quoted

/-!
# Settings

What a user can choose, and the part of it that a computation takes along when
it is armed.  Settings that no scheduler can work with are refused with the
first fault found.
-/

namespace LogTint

structure Settings where
  /-- Fold sequences out of view. -/
  hideCodes : Bool
  /-- Show the folded sequence under the caret. -/
  showOnCursor : Bool
  darkTheme : Bool
  extensions : Extensions
  /-- Milliseconds without an edit before a document is highlighted. -/
  debounce : Nat
  /-- Documents with more characters are not highlighted. -/
  maxChars : Nat
deriving DecidableEq

/-- What an armed computation keeps of the settings. -/
structure WorkerConfig where
  debounce : Nat
  maxChars : Nat
  highlight : HighlightConfig
deriving DecidableEq

namespace Settings

/-- The settings in effect before a user chooses any. -/
def standard : Settings :=
  { hideCodes := true
    showOnCursor := true
    darkTheme := true
    extensions := .ofList [Extensions.fallback]
    debounce := 200
    maxChars := 5000000 }

instance : Inhabited Settings := ⟨standard⟩

/-- The settings with the extensions that a list of entries asks for. -/
def withExtensions (settings : Settings) (entries : List Text) : Settings :=
  { settings with extensions := .ofEntries entries }

inductive Fault where
  | noDebounce
  | noCeiling
  | invalidExtension (extension : Text)
deriving DecidableEq

def Fault.message : Fault → String
  | .noDebounce => "debounce must be positive"
  | .noCeiling => "max_document_chars must be positive"
  | .invalidExtension extension =>
      "invalid file extension " ++ String.ofList extension.quoted

def fault? (settings : Settings) : Option Fault :=
  if settings.debounce = 0 then some .noDebounce
  else if settings.maxChars = 0 then some .noCeiling
  else settings.extensions.invalid?.map .invalidExtension

/-- Accepts settings that have no fault. -/
def validate (settings : Settings) : Except HighlightError Unit :=
  match settings.fault? with
  | none => .ok ()
  | some fault => .error (.invalidConfiguration fault.message)

/-- Whether a file has one of the chosen extensions. -/
def matchesFile (settings : Settings) (path : Path) : Bool :=
  settings.extensions.matchesPath path

/-- The same for a path that is written as a text. -/
def matchesPath (settings : Settings) (path : Text) : Bool :=
  settings.matchesFile (.ofText path)

/-- Options of the highlighting passes under these settings. -/
def highlightConfig (settings : Settings) : HighlightConfig :=
  { HighlightConfig.enabled with folds := settings.hideCodes }

def theme (settings : Settings) : Theme :=
  if settings.darkTheme then .dark else .light

/-- What a computation armed under these settings keeps of them. -/
def workerConfig (settings : Settings) : WorkerConfig :=
  { debounce := settings.debounce
    maxChars := settings.maxChars
    highlight := settings.highlightConfig }

end Settings

end LogTint
