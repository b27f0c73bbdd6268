import LogTint.Schedule.Session

/-!
# How runs go on

A run takes the lock of its document and asks whether its edit is still the
latest.  It then reads the text, computes under the lock, and publishes after
the lock is free again, provided that the document is alive and nothing newer
has happened.
-/

namespace LogTint.Session

/-- Moves a document from one state to another on behalf of a run whose edit is
still the latest.  Leaving the pending state detaches the run from its timer,
so that later edits no longer cancel it. -/
def advanceState? (session : Session) (run : Run) (before after : DocumentState) :
    Option Session :=
  match session.registry.find? run.id with
  | none => none
  | some entry =>
      if entry.generation = run.generation ∧ entry.state = before then
        some (session.modifyEntry run.id fun entry =>
          { entry with
            state := after
            armed := if before = .pending then none else entry.armed })
      else none

/-- Hands the result of a run to whoever asked for it. -/
def reply (session : Session) (origin : Origin) (id : DocumentId)
    (result : Answer) : Session :=
  match origin with
  | .timer => session
  | .call true => { session with answer := result }.endCall
  | .call false => (session.note (.returned id result)).endCall

/-- Ends a run and hands its result to whoever asked for it. -/
def finish (session : Session) (run : Run) (result : Answer) : Session :=
  (session.removeRun run).reply run.origin run.id result

/-- Stops tracking a document that a run found given up. -/
def closeDropped (session : Session) (run : Run) : Session :=
  let discarded := session.count .discarded
  if discarded.registry.contains run.id then
    ({ discarded with
      registry := discarded.registry.erase run.id }.count .documentClosed).note
        (.closed run.id)
  else discarded

def finishStale (session : Session) (run : Run) : Session :=
  (session.count .discarded).finish run (.published none)

def finishDropped (session : Session) (run : Run) : Session :=
  (session.closeDropped run).finish run (.failure (.documentClosed run.id))

def finishOversized (session : Session) (run : Run) (chars : Nat) : Session :=
  let settled := (session.advanceState? run .computing .idle).getD session
  ((settled.count .oversized).note (.bypass run.id chars)).finish run
    (.published none)

/-- Ends a run whose computation broke off.  Whoever asked for the result is
given the whole message of the error as its reason. -/
def finishFailed (session : Session) (run : Run) (reason : String) : Session :=
  let settled := (session.advanceState? run .computing .idle).getD session
  let error : HighlightError := .computationFailed reason
  ((settled.count .computeError).note (.error run.id error)).finish run
    (.failure (.computationFailed error.message))

/-- Takes the text that a run was after and begins to compute, unless the text
is over the ceiling that the run was armed with. -/
def takeSnapshot (session : Session) (run : Run) : Session :=
  let text := match session.sources[run.source]? with
    | some document => document.text
    | none => []
  let returned := session.modifySource run.source Source.endReading
  if text.exceeds run.config.maxChars then
    returned.finishOversized run text.length
  else returned.enterPhase run (.computing text)

/-- Lets a run read its document.  The run waits if the document has something
to do first. -/
def readSource (session : Session) (run : Run) (frames : List Frame) : Session :=
  match session.sources[run.source]? with
  | none => (session.finishDropped run).answering .nothing frames
  | some document =>
      let (actions, reading) := document.beginSnapshot
      let begun :=
        (session.modifySource run.source fun _ => reading).enterPhase run .reading
      if actions.isEmpty then
        (begun.takeSnapshot { run with phase := .reading }).answering .nothing frames
      else
        begun.answering .nothing
          (.actions actions :: .snapshot { run with phase := .reading } :: frames)

/-- Lets a run that has the lock go on. -/
def beginWork (session : Session) (run : Run) (frames : List Frame) : Session :=
  match session.advanceState? run .pending .computing with
  | none => (session.finishStale run).answering .nothing frames
  | some advanced =>
      if advanced.isAlive run.source then advanced.readSource run frames
      else (advanced.finishDropped run).answering .nothing frames

/-- Lets a run that is due ask for the lock. -/
def requestLock (session : Session) (run : Run) (frames : List Frame) : Session :=
  if session.isLocked run.id then
    (session.enterPhase run .waiting).answering .nothing frames
  else session.beginWork run frames

/-- Highlights a text with the help of the cache, if there is one. -/
def highlightText (session : Session) (text : Text) (config : HighlightConfig) :
    (Highlights × Lookup) × Session :=
  match session.cache with
  | none => ((Highlights.compute text config, .uncached), session)
  | some cache =>
      let ((highlights, hit), after) :=
        cache.getOrCompute session.clock text config
      ((highlights, if hit then .hit else .miss), { session with cache := some after })

/-- Completes the computation of a run and frees the lock. -/
def complete (session : Session) (run : Run) (text : Text) : Session :=
  let ((highlights, lookup), after) :=
    session.highlightText text run.config.highlight
  let finished := { run with phase := .computed text highlights lookup }
  let parted :=
    { after with runs := after.runs.filter (!·.is run.id run.generation) }
  (parted.passLock run.id).enterPhase finished finished.phase

/-- Breaks off the computation of a run and frees the lock. -/
def breakOff (session : Session) (run : Run) (reason : String) : Session :=
  let parted :=
    { session with runs := session.runs.filter (!·.is run.id run.generation) }
  (parted.passLock run.id).enterPhase run (.failed reason)

/-- Counts where the highlights of a run came from, and the time that has passed
since it began to compute unless they were in the cache. -/
def countLookup (session : Session) (lookup : Lookup) (nanoseconds : Nat) : Session :=
  match lookup with
  | .uncached => session.count (.computed nanoseconds)
  | .hit => session.count .cacheHit
  | .miss => (session.count .cacheMiss).count (.computed nanoseconds)

/-- Publishes the highlights of a run, or discards them if the document was
given up or something newer has happened. -/
def conclude (session : Session) (run : Run) (text : Text)
    (highlights : Highlights) (lookup : Lookup) (nanoseconds : Nat) : Session :=
  let counted := session.countLookup lookup nanoseconds
  if counted.isAlive run.source then
    match counted.advanceState? run .computing .idle with
    | none => counted.finishStale run
    | some advanced =>
        let publication : Publication := ⟨run.generation, text, highlights⟩
        ((advanced.count .published).note (.highlights run.id publication)).finish
          run (.published (some publication))
  else counted.finishDropped run

/-- Lets a run that is ready go on as far as it can.  If it has computed, the
given time has passed since it began to. -/
def poll (session : Session) (run : Run) (nanoseconds : Nat) : Session :=
  match run.phase with
  | .due => session.requestLock run []
  | .granted => session.beginWork run []
  | .computed text highlights lookup =>
      session.conclude run text highlights lookup nanoseconds
  | .failed reason => session.finishFailed run reason
  | _ => session

end LogTint.Session
