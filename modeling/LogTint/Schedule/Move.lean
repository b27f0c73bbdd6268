import LogTint.Schedule.Performing

/-!
# Moves

A session proceeds by moves: the host begins to do something, an action in
progress goes on, a timer fires, a run goes on, a computation ends or breaks
off, time passes.  Which move comes next is left open here; a history is any sequence of
moves that are possible one after the other.
-/

namespace LogTint

/-- One thing that can happen next. -/
inductive Move where
  /-- The host creates a document. -/
  | create (source : Source)
  /-- The host does something. -/
  | act (action : Action)
  /-- The host calls for highlights at once and waits for them. -/
  | highlightNow (id : DocumentId)
  /-- What is being carried out goes on. -/
  | proceed
  /-- The host is told of a document that was found closed. -/
  | tell (notice : Notice)
  /-- The timer of a run fires. -/
  | wake (id : DocumentId) (generation : Nat)
  /-- A run that is ready goes on.  If it has computed, the given time has passed
  since it began to. -/
  | poll (id : DocumentId) (generation nanoseconds : Nat)
  /-- The computation of a run ends. -/
  | complete (id : DocumentId) (generation : Nat)
  /-- The computation of a run breaks off. -/
  | fail (id : DocumentId) (generation : Nat) (reason : String)
  /-- Time passes. -/
  | tick (time : Nat)
deriving DecidableEq

namespace Session

/-- What is being carried out goes on by one step. -/
def proceed (session : Session) : Session :=
  match session.control with
  | .idle => session
  | .perform action frames => session.perform action frames
  | .answer _ [] => { session with control := .idle }
  | .answer answer (frame :: frames) => session.resume answer frame frames

def isIdle (session : Session) : Bool := decide (session.control = .idle)

def create (session : Session) (source : Source) : Session :=
  { session with
    sources := session.sources ++ [source]
    answer := .count session.sources.length }

def act (session : Session) (action : Action) : Session :=
  { session with control := .perform action [.host] }

/-- The host calls for highlights at once. -/
def highlightNow (session : Session) (id : DocumentId) : Session :=
  if session.held then session.beginNow true id []
  else { session with answer := .noScheduler }

/-- The session after a move, if the move is possible.  Computations end or
break off at any time; every other move waits until nothing is being carried
out. -/
def move? (session : Session) : Move → Option Session
  | .proceed => if session.isIdle then none else some session.proceed
  | .complete id generation =>
      match session.findRun? id generation with
      | none => none
      | some run =>
          match run.phase with
          | .computing text => some (session.complete run text)
          | _ => none
  | .fail id generation reason =>
      match session.findRun? id generation with
      | none => none
      | some run =>
          match run.phase with
          | .computing _ => some (session.breakOff run reason)
          | _ => none
  | .create source =>
      if session.isIdle then some (session.create source) else none
  | .act action => if session.isIdle then some (session.act action) else none
  | .highlightNow id =>
      if session.isIdle then some (session.highlightNow id) else none
  | .tell notice =>
      if session.isIdle ∧ notice ∈ session.notices then
        some ({ session with
          notices := session.notices.erase notice }.note (.closed notice.id))
      else none
  | .wake id generation =>
      if session.isIdle then
        match session.findRun? id generation with
        | none => none
        | some run =>
            match run.phase with
            | .sleeping deadline =>
                if deadline ≤ session.clock then some (session.enterPhase run .due)
                else none
            | _ => none
      else none
  | .poll id generation nanoseconds =>
      if session.isIdle then
        match session.findRun? id generation with
        | none => none
        | some run =>
            if run.phase.isReady then some (session.poll run nanoseconds) else none
      else none
  | .tick time =>
      if session.isIdle ∧ session.clock ≤ time then
        some { session with clock := time }
      else none

/-- The session after a sequence of moves, if each is possible in its turn. -/
def moves? (session : Session) (moves : List Move) : Option Session :=
  moves.foldlM move? session

end Session

end LogTint
