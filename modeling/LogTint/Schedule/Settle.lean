import LogTint.Schedule.Move

/-!
# Sessions under a clock that stands still

Work takes no time.  Between two moves of the clock everything that can go on
does so, in a fixed order: what is being carried out, the run that the host
waits for, runs and news that stand in line for their turn, runs that have
computed, and computations in the order in which they began.  None of them
breaks off.  `workload` bounds the number of moves this takes: every move uses
up part of it.
-/

namespace LogTint

namespace Phase

/-- Bound on the moves that a run takes from a phase on. -/
def workload : Phase → Nat
  | .sleeping _ => 0
  | .due => 14
  | .waiting => 12
  | .granted => 11
  | .reading => 4
  | .computing _ => 3
  | .computed _ _ _ | .failed _ => 1

end Phase

namespace Frame

/-- Bound on the moves that a frame takes, acting documents aside. -/
def workload : Frame → Nat
  | .rearm _ rest _ => 2 + 6 * rest.length
  | _ => 1

/-- Number of actions that documents have yet to carry out. -/
def pendingActions : Frame → Nat
  | .actions rest => rest.length
  | _ => 0

end Frame

namespace Control

def frames : Control → List Frame
  | .idle => []
  | .perform _ frames | .answer _ frames => frames

end Control

def Run.complete (run : Run) : Move := .complete run.id run.generation

namespace Session

/-- The move of a run that goes on now. -/
def pollNow (session : Session) (run : Run) : Move :=
  .poll run.id run.generation (session.stopwatch run)

/-- Number of actions that documents have yet to carry out. -/
def pendingActions (session : Session) : Nat :=
  (session.sources.map Source.pendingActions).foldr (· + ·) 0 +
    (session.control.frames.map Frame.pendingActions).foldr (· + ·) 0

/-- Bound on the moves that one action takes, acting documents aside. -/
def actionWorkload (session : Session) : Nat :=
  24 + 6 * (session.registry.size + session.pendingActions)

/-- Bound on the moves that are possible before the clock moves. -/
def workload (session : Session) : Nat :=
  let control := match session.control with
    | .idle => 0
    | .perform _ frames => session.actionWorkload + (frames.map Frame.workload).foldr (· + ·) 0
    | .answer _ frames => 1 + (frames.map Frame.workload).foldr (· + ·) 0
  session.pendingActions * session.actionWorkload + control +
    (session.runs.map (·.phase.workload)).foldr (· + ·) 0 + session.notices.length

/-- The notice or run whose turn it is, of those that stand in line. -/
def nextTurn? (session : Session) : Option Move :=
  match session.notices.find? (·.isDue session.runs) with
  | some notice => some (.tell notice)
  | none => (session.runs.find? (·.phase.isQueued)).map session.pollNow

/-- The move that comes next while the clock stands still. -/
def nextMove? (session : Session) : Option Move :=
  if !session.isIdle then some .proceed
  else
    ((session.runs.find? fun run => run.phase.isReady && run.isAwaited).map
        session.pollNow).or <|
      session.nextTurn?.or <|
      ((session.runs.find? (·.phase.isReady)).map session.pollNow).or <|
      (session.runs.find? (·.phase.isComputing)).map Run.complete

/-- Makes the next moves, at most the given number of them. -/
def settleWithin : Nat → Session → Session
  | 0, session => session
  | moves + 1, session =>
      match session.nextMove?.bind session.move? with
      | none => session
      | some after => settleWithin moves after

/-- Goes on until nothing is left to do before the clock moves. -/
def settle (session : Session) : Session :=
  settleWithin session.workload session

/-- The earliest deadline of a sleeping run, if it is not after a given time. -/
def nextDeadline? (session : Session) (time : Nat) : Option Nat :=
  (session.runs.filterMap (·.phase.deadline?)).min?.filter (· ≤ time)

def wakeIfDue (session : Session) (run : Run) : Session :=
  match run.phase.deadline? with
  | some deadline =>
      if deadline ≤ session.clock then session.enterPhase run .due else session
  | none => session

def wakeAll (session : Session) : Session :=
  session.runs.foldl wakeIfDue session

/-- Moves the clock to a time, stopping at the deadlines on the way, at most
the given number of times. -/
def advanceWithin : Nat → Nat → Session → Session
  | 0, time, session => { session with clock := max session.clock time }
  | stops + 1, time, session =>
      match session.nextDeadline? time with
      | none => { session with clock := max session.clock time }
      | some deadline =>
          advanceWithin stops time
            ({ session with clock := max session.clock deadline }.wakeAll).settle

/-- Moves the clock on.  Every timer on the way fires at its own deadline. -/
def advance (session : Session) (duration : Nat) : Session :=
  let stops := session.runs.length +
    session.pendingActions * (session.registry.size + session.pendingActions) + 1
  advanceWithin stops (session.clock + duration) session

end Session

end LogTint
