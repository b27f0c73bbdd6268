/-!
# Documents under highlighting

An open document is known by a number that is never used twice, and is in one
of four states.
-/

namespace LogTint

/-- The number of a registered document.  Numbers are given out one after the
other.  They stand for 64-bit words that are assumed not to wrap around. -/
structure DocumentId where
  number : Nat
deriving DecidableEq

namespace DocumentId

def render (id : DocumentId) : String := "doc-" ++ toString id.number

/-- Documents are ordered by number. -/
def compare (left right : DocumentId) : Ordering :=
  Ord.compare left.number right.number

end DocumentId

/-- Where a document stands between an edit and its highlights. -/
inductive DocumentState where
  /-- No computation is armed. -/
  | idle
  /-- A computation is armed. -/
  | pending
  /-- A computation is under way. -/
  | computing
  /-- The document is no longer tracked. -/
  | closed
deriving DecidableEq

namespace DocumentState

/-- The state with a given number; every number past the last means closed. -/
def ofNumber : Nat → DocumentState
  | 0 => .idle
  | 1 => .pending
  | 2 => .computing
  | _ => .closed

def number : DocumentState → Nat
  | .idle => 0
  | .pending => 1
  | .computing => 2
  | .closed => 3

/-- Whether a computation is armed or under way. -/
def isBusy : DocumentState → Bool
  | .pending | .computing => true
  | .idle | .closed => false

def render : DocumentState → String
  | .idle => "idle"
  | .pending => "pending"
  | .computing => "computing"
  | .closed => "closed"

end DocumentState

end LogTint
