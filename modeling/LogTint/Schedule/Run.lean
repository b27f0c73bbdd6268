import LogTint.Schedule.Action

/-!
# Runs

A run is one recomputation of one document on behalf of one edit.  It sleeps
until its deadline or is due at once, takes the document's lock, reads the
text, computes, and publishes if nothing newer has happened.  A computation
that breaks off is reported instead.  The generation that the edit gave the
document tells its runs apart.
-/

namespace LogTint

inductive Origin where
  /-- An edit armed it. -/
  | timer
  /-- A call asked for it; the host may be waiting for the result. -/
  | call (awaited : Bool)
deriving DecidableEq

inductive Lookup where
  | uncached
  | hit
  | miss
deriving DecidableEq

/-- How far a run has come. -/
inductive Phase where
  /-- Waiting for the document to be left alone. -/
  | sleeping (deadline : Nat)
  /-- Ready to ask for the lock. -/
  | due
  /-- Waiting for the lock. -/
  | waiting
  /-- Given the lock and ready to go on. -/
  | granted
  /-- Reading the document. -/
  | reading
  /-- Computing the highlights of a text. -/
  | computing (text : Text)
  /-- Done computing and ready to publish. -/
  | computed (text : Text) (highlights : Highlights) (lookup : Lookup)
  /-- The computation broke off; the run is ready to report it. -/
  | failed (reason : String)
deriving DecidableEq

namespace Phase

/-- Whether a run in this phase keeps other runs of its document from
computing. -/
def holdsLock : Phase → Bool
  | .granted | .reading | .computing _ => true
  | _ => false

/-- Whether a run in this phase stands in line for its turn. -/
def isQueued : Phase → Bool
  | .due | .granted => true
  | _ => false

/-- Whether a run in this phase goes on as soon as it is its turn. -/
def isReady : Phase → Bool
  | .due | .granted | .computed _ _ _ | .failed _ => true
  | _ => false

def isComputing : Phase → Bool
  | .computing _ => true
  | _ => false

/-- The time at which a sleeping run becomes due. -/
def deadline? : Phase → Option Nat
  | .sleeping deadline => some deadline
  | _ => none

end Phase

/-- One recomputation of one document. -/
structure Run where
  id : DocumentId
  generation : Nat
  source : SourceId
  config : WorkerConfig
  origin : Origin
  phase : Phase
deriving DecidableEq

namespace Run

/-- Whether this is the run of a document's generation. -/
def is (run : Run) (id : DocumentId) (generation : Nat) : Bool :=
  decide (run.id = id) && decide (run.generation = generation)

/-- Whether the host is waiting for the run's result. -/
def isAwaited (run : Run) : Bool := decide (run.origin = .call true)

end Run

/-- News of a document that was found closed, on its way to the host.  It takes
its turn behind the runs that stood in line before it. -/
structure Notice where
  id : DocumentId
  ahead : List Run
deriving DecidableEq

/-- Whether none of the runs ahead of a notice is still in line.  No run enters
a phase twice, so a run that has gone on differs from what it was. -/
def Notice.isDue (notice : Notice) (runs : List Run) : Bool :=
  notice.ahead.all fun run => decide (run ∉ runs)

end LogTint
