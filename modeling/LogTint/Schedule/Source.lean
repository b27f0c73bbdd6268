import LogTint.Document.Buffer
import LogTint.Schedule.Action

/-!
# Documents of the host

The scheduler keeps no document alive.  A document lives as long as the host
holds it or a call of the scheduler is reading it.  A document may act when its
text or its length is asked for: each question takes the next list of actions,
and they are carried out before the answer is read.
-/

namespace LogTint

/-- How a document answers when its length is asked for. -/
inductive LengthRule where
  /-- It keeps count of its characters. -/
  | tracked
  /-- It counts the characters of its text. -/
  | counted
  /-- It always answers the same number. -/
  | declared (chars : Nat)
deriving DecidableEq

structure Source where
  buffer : Buffer
  editable : Bool
  lengthRule : LengthRule
  /-- Actions for the questions after the text, in order. -/
  onSnapshot : List (List Action)
  /-- Actions for the questions after the length, in order. -/
  onLength : List (List Action)
  /-- Whether the host still holds the document. -/
  held : Bool
  /-- Number of questions in progress. -/
  readers : Nat
deriving DecidableEq

namespace Source

/-- A document that never acts. -/
def quiet (text : Text) (editable : Bool) (lengthRule : LengthRule) : Source :=
  ⟨.ofText text, editable, lengthRule, [], [], true, 0⟩

/-- Whether anything keeps the document alive. -/
def isAlive (source : Source) : Bool := source.held || decide (0 < source.readers)

def text (source : Source) : Text := source.buffer.text

def length (source : Source) : Nat :=
  match source.lengthRule with
  | .tracked => source.buffer.chars
  | .counted => source.text.length
  | .declared chars => chars

/-- Whether the host can still change the text. -/
def canEdit (source : Source) : Bool := source.held && source.editable

/-- The document while one more question is in progress, and its actions for
that question after the text. -/
def beginSnapshot (source : Source) : List Action × Source :=
  (source.onSnapshot.headD [],
    { source with
      onSnapshot := source.onSnapshot.tail
      readers := source.readers + 1 })

/-- The document while one more question is in progress, and its actions for
that question after the length. -/
def beginLength (source : Source) : List Action × Source :=
  (source.onLength.headD [],
    { source with
      onLength := source.onLength.tail
      readers := source.readers + 1 })

def endReading (source : Source) : Source :=
  { source with readers := source.readers - 1 }

/-- Number of actions that are left. -/
def pendingActions (source : Source) : Nat :=
  source.onSnapshot.flatten.length + source.onLength.flatten.length

/-- Whether the document does nothing when it is read. -/
def isQuiet (source : Source) : Bool := decide (source.pendingActions = 0)

end Source

end LogTint
