import LogTint.Cache
import LogTint.Metrics
import LogTint.Schedule.Registry
import LogTint.Schedule.Run
import LogTint.Schedule.Source

/-!
# Sessions

A session is a host with its documents and its scheduler at one moment of a
clock that the host moves.  An action in progress may have to wait until a
document has acted; what is left to do then stands on a stack of frames.
Runs are kept in the order in which they entered their phases, so that the
first run found in a phase is the one that has been in it longest.
-/

namespace LogTint

/-- What is left to do once an answer is known. -/
inductive Frame where
  /-- Tell the host. -/
  | host
  /-- End a call of the scheduler. -/
  | call
  /-- Note what a document did. -/
  | acted (action : Action)
  /-- Carry out the other actions of a document. -/
  | actions (rest : List Action)
  /-- Go on with an edit whose length question is answered. -/
  | measured (id : DocumentId) (source : SourceId)
  /-- Go on with a run whose text question is answered. -/
  | snapshot (run : Run)
  /-- Note what became of a document's edit and go on with the others. -/
  | rearm (id : DocumentId) (rest : List DocumentId)
      (outcomes : List (DocumentId × EditOutcome))
deriving DecidableEq

/-- What is being carried out. -/
inductive Control where
  | idle
  | perform (action : Action) (frames : List Frame)
  | answer (answer : Answer) (frames : List Frame)
deriving DecidableEq

/-- A host with its documents and its scheduler. -/
structure Session where
  clock : Nat
  sources : List Source
  settings : Settings
  registry : Registry
  /-- The number of the next document to be registered, a 64-bit word that is
  assumed not to wrap around. -/
  nextId : Nat
  runs : List Run
  cache : Option Cache
  metrics : Metrics
  /-- Documents found closed of which the host has yet to be told. -/
  notices : List Notice
  /-- Whether the host still holds the scheduler. -/
  held : Bool
  /-- Number of calls of the scheduler in progress; each keeps it alive. -/
  calls : Nat
  /-- Whether the scheduler is gone. -/
  dropped : Bool
  control : Control
  /-- The answer to the host's latest step. -/
  answer : Answer
  /-- What has happened so far, with the time. -/
  log : List (Nat × Event)
  /-- The nanoseconds that have passed since a run began to compute, by a clock
  that the host does not move.  No move reads it: a session that settles asks it how
  long a run has taken when it lets the run go on. -/
  stopwatch : Run → Nat

namespace Session

/-- A session in which nothing has happened. -/
def initial (settings : Settings) (cache : Option Cache)
    (stopwatch : Run → Nat := fun _ => 0) : Session :=
  { clock := 0
    sources := []
    settings
    registry := .empty
    nextId := 1
    runs := []
    cache
    metrics := .zero
    notices := []
    held := true
    calls := 0
    dropped := false
    control := .idle
    answer := .nothing
    log := []
    stopwatch }

def count (session : Session) (occurrence : Occurrence) : Session :=
  { session with metrics := session.metrics.record occurrence }

/-- Notes that something happened now. -/
def note (session : Session) (event : Event) : Session :=
  { session with log := session.log ++ [(session.clock, event)] }

/-- Hands an answer to the frames that wait for it. -/
def answering (session : Session) (answer : Answer) (frames : List Frame) :
    Session :=
  { session with control := .answer answer frames }

def isAlive (session : Session) (source : SourceId) : Bool :=
  match session.sources[source]? with
  | some document => document.isAlive
  | none => false

def modifySource (session : Session) (source : SourceId)
    (change : Source → Source) : Session :=
  { session with sources := session.sources.modify source change }

def modifyEntry (session : Session) (id : DocumentId) (change : Entry → Entry) :
    Session :=
  { session with registry := session.registry.modify id change }

def findRun? (session : Session) (id : DocumentId) (generation : Nat) :
    Option Run :=
  session.runs.find? (·.is id generation)

/-- Whether a run of the document holds its lock. -/
def isLocked (session : Session) (id : DocumentId) : Bool :=
  session.runs.any fun run => decide (run.id = id) && run.phase.holdsLock

/-- Lets a run enter a phase, behind all other runs. -/
def enterPhase (session : Session) (run : Run) (phase : Phase) : Session :=
  { session with
    runs := session.runs.filter (!·.is run.id run.generation) ++
      [{ run with phase }] }

/-- Gives a free lock to the run of the document that has waited longest. -/
def passLock (session : Session) (id : DocumentId) : Session :=
  match session.runs.find? fun run =>
      decide (run.id = id) && decide (run.phase = .waiting) with
  | some run => session.enterPhase run .granted
  | none => session

/-- Ends a run; the lock that it held, if any, passes on. -/
def removeRun (session : Session) (run : Run) : Session :=
  let remaining :=
    { session with
      runs := session.runs.filter (!·.is run.id run.generation) }
  if run.phase.holdsLock then remaining.passLock run.id else remaining

/-- Cancels the armed run of a document and tells whether there was one. -/
def cancelArmed (session : Session) (id : DocumentId) : Bool × Session :=
  match (session.registry.find? id).bind (·.armed) with
  | none => (false, session)
  | some generation =>
      let disarmed := session.modifyEntry id fun entry =>
        { entry with armed := none }
      match session.findRun? id generation with
      | none => (false, disarmed)
      | some run => (true, disarmed.removeRun run)

/-- Sends the host news of a document that was found closed. -/
def sendNotice (session : Session) (id : DocumentId) : Session :=
  { session with
    notices := session.notices ++
      [⟨id, session.runs.filter (·.phase.isQueued)⟩] }

/-- Stops tracking a document and cancels its armed run. -/
def release (session : Session) (id : DocumentId) : Session :=
  if session.registry.contains id then
    let cancelled := (session.cancelArmed id).2
    { cancelled with
      registry := cancelled.registry.erase id }.count .documentClosed
  else session

/-- Closes every document of a scheduler that is gone and cancels their armed
runs.  Runs that are under way still see the entries. -/
def close (session : Session) : Session :=
  let cancelled := session.registry.ids.foldl
    (fun session id => (session.cancelArmed id).2) session
  { cancelled with
    dropped := true
    registry := cancelled.registry.modifyAll fun entry =>
      { entry with state := .closed } }

def beginCall (session : Session) : Session :=
  { session with calls := session.calls + 1 }

/-- Ends a call of the scheduler.  The scheduler goes with the last call when
the host has given it up. -/
def endCall (session : Session) : Session :=
  let ended := { session with calls := session.calls - 1 }
  if ended.calls = 0 ∧ !ended.held ∧ !ended.dropped then ended.close else ended

/-- Gives up the scheduler.  It goes at once unless a call is in progress. -/
def giveUp (session : Session) : Session :=
  let released := { session with held := false }
  if released.calls = 0 ∧ !released.dropped then released.close else released

end Session

end LogTint
