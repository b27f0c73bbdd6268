import LogTint.Schedule.Action

/-!
# Registered documents

The registry holds an entry for every tracked document, in the order of their
numbers.
-/

namespace LogTint

/-- What the scheduler knows of a tracked document. -/
structure Entry where
  id : DocumentId
  source : SourceId
  state : DocumentState
  /-- Number of edits seen so far, a 64-bit word that is assumed not to wrap
  around. -/
  generation : Nat
  /-- Generation of the run whose timer is armed. -/
  armed : Option Nat
deriving DecidableEq

def Entry.info (entry : Entry) : DocumentInfo :=
  ⟨entry.id, entry.state, entry.generation⟩

structure Registry where
  entries : List Entry
deriving DecidableEq

namespace Registry

def empty : Registry := ⟨[]⟩

def size (registry : Registry) : Nat := registry.entries.length

def ids (registry : Registry) : List DocumentId := registry.entries.map (·.id)

def find? (registry : Registry) (id : DocumentId) : Option Entry :=
  registry.entries.find? (·.id = id)

def contains (registry : Registry) (id : DocumentId) : Bool :=
  (registry.find? id).isSome

def add (registry : Registry) (entry : Entry) : Registry :=
  ⟨registry.entries ++ [entry]⟩

def erase (registry : Registry) (id : DocumentId) : Registry :=
  ⟨registry.entries.filter (·.id ≠ id)⟩

def modify (registry : Registry) (id : DocumentId) (change : Entry → Entry) :
    Registry :=
  ⟨registry.entries.map fun entry => if entry.id = id then change entry else entry⟩

def modifyAll (registry : Registry) (change : Entry → Entry) : Registry :=
  ⟨registry.entries.map change⟩

end Registry

end LogTint
