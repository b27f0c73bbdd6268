import LogTint.Schedule.Settle

/-!
# Steps of a host and reports on them

A host takes steps.  After each one the session settles, and the report tells
the answer, what happened, and how things stand.
-/

namespace LogTint

/-- Which deliveries a host listens to. -/
structure Handler where
  highlights : Bool
  bypass : Bool
  error : Bool
  closed : Bool
deriving DecidableEq

namespace Handler

def all : Handler := ⟨true, true, true, true⟩

def silent : Handler := ⟨false, false, false, false⟩

/-- Whether the host gets to know of an event.  What the host's own documents
and calls do is always known. -/
def admits (handler : Handler) : Event → Bool
  | .highlights _ _ => handler.highlights
  | .bypass _ _ => handler.bypass
  | .error _ _ => handler.error
  | .closed _ => handler.closed
  | .acted _ _ | .returned _ _ => true

def render (handler : Handler) : String :=
  "CallbackHandler \x7b on_highlights: " ++ toString handler.highlights ++
    ", on_bypass: " ++ toString handler.bypass ++
    ", on_error: " ++ toString handler.error ++
    ", on_closed: " ++ toString handler.closed ++ " \x7d"

end Handler

inductive Step where
  | create (source : Source)
  | act (action : Action)
  /-- Calls for highlights at once and waits for them. -/
  | highlightNow (id : DocumentId)
  /-- Lets time pass. -/
  | advance (duration : Nat)
deriving DecidableEq

structure Standing where
  documents : List DocumentInfo
  count : Nat
  cacheLength : Option Nat
deriving DecidableEq

structure Report where
  answer : Answer
  clock : Nat
  events : List (Nat × Event)
  metrics : Metrics
  /-- Absent once the host has given the scheduler up. -/
  standing : Option Standing
deriving DecidableEq

/-- Events are reported by time and, within one time, by document. -/
def eventLe (left right : Nat × Event) : Bool :=
  (compare [left.1, left.2.documentNumber] [right.1, right.2.documentNumber]).isLE

namespace Session

/-- The session before a step that has yet to be answered. -/
def awaiting (session : Session) : Session := { session with answer := .nothing }

def step (session : Session) : Step → Session
  | .create source => (session.create source).settle
  | .act action => (session.awaiting.act action).settle
  | .highlightNow id => (session.awaiting.highlightNow id).settle
  | .advance duration => (session.advance duration).awaiting

/-- How the scheduler stands, for a host that still holds it. -/
def standing? (session : Session) : Option Standing :=
  if session.held then
    some
      { documents := session.registry.entries.map Entry.info
        count := session.registry.size
        cacheLength := session.cache.map Cache.length }
  else none

/-- The report on what has happened since an earlier session. -/
def reportSince (session earlier : Session) (handler : Handler) : Report :=
  { answer := session.answer
    clock := session.clock
    events := ((session.log.drop earlier.log.length).filter
      fun event => handler.admits event.2).mergeSort eventLe
    metrics := session.metrics
    standing := session.standing? }

/-- Takes steps one after the other and reports on each. -/
def run (handler : Handler) (session : Session) : List Step → List Report
  | [] => []
  | step :: later =>
      let after := session.step step
      after.reportSince session handler :: run handler after later

def steps (session : Session) (steps : List Step) : Session :=
  steps.foldl step session

/-- Begins a session, unless its settings have a fault. -/
def start (settings : Settings) (cache : Option Cache)
    (stopwatch : Run → Nat := fun _ => 0) : Except HighlightError Session :=
  match settings.validate with
  | .ok () => .ok (initial settings cache stopwatch)
  | .error error => .error error

end Session

end LogTint
