import LogTint.Schedule.Working

/-!
# Edits and calls

An edit gives its document a new generation, cancels the run that was armed
before and arms one of its own, unless the document is over the ceiling.  A
call to highlight at once does the same without the delay and without asking
for the length.
-/

namespace LogTint.Session

/-- Gives a document its next generation and cancels its armed run. -/
def supersede (session : Session) (id : DocumentId) : Session :=
  let bumped := session.modifyEntry id fun entry =>
    { entry with generation := entry.generation + 1 }
  let (cancelled, disarmed) := bumped.cancelArmed id
  if cancelled then disarmed.count .superseded else disarmed

/-- Sets the state of a document unless it is closed. -/
def setState (session : Session) (id : DocumentId) (state : DocumentState) :
    Session :=
  session.modifyEntry id fun entry =>
    if entry.state = .closed then entry else { entry with state }

/-- Arms a run for the current generation of a document. -/
def arm (session : Session) (id : DocumentId) (source : SourceId)
    (generation : Nat) (config : WorkerConfig) : Session :=
  let armed := session.modifyEntry id fun entry =>
    { entry with armed := some generation }
  { armed with
    runs := armed.runs ++
      [{ id
         generation
         source
         config
         origin := .timer
         phase := .sleeping (armed.clock + config.debounce) }] }

/-- Carries out an edit once the length of the document is known. -/
def applyEdit (session : Session) (id : DocumentId) (chars : Nat) :
    Answer × Session :=
  match session.registry.find? id with
  | none => (.failure (.documentNotFound id), session)
  | some entry =>
      let config := session.settings.workerConfig
      let superseded := session.supersede id
      if config.maxChars < chars then
        (.outcome .bypassed, (superseded.setState id .idle).count .bypassed)
      else
        (.outcome .scheduled,
          (superseded.setState id .pending).arm id entry.source
            (entry.generation + 1) config)

/-- Goes on with an edit whose length question is answered. -/
def finishEdit (session : Session) (id : DocumentId) (source : SourceId)
    (frames : List Frame) : Session :=
  let chars := match session.sources[source]? with
    | some document => document.length
    | none => 0
  let (answer, edited) :=
    (session.modifySource source Source.endReading).applyEdit id chars
  edited.answering answer frames

/-- Begins an edit: asks for the length of the document, which may act first.
A document that was given up is no longer tracked. -/
def beginEdit (session : Session) (id : DocumentId) (frames : List Frame) :
    Session :=
  let called := session.beginCall
  let frames := .call :: frames
  match called.registry.find? id with
  | none => called.answering (.failure (.documentNotFound id)) frames
  | some entry =>
      let counted := called.count .edit
      match counted.sources[entry.source]?.filter Source.isAlive with
      | none =>
          ((counted.release id).sendNotice id).answering
            (.failure (.documentClosed id)) frames
      | some document =>
          let (actions, measuring) := document.beginLength
          let begun := counted.modifySource entry.source fun _ => measuring
          if actions.isEmpty then begun.finishEdit id entry.source frames
          else
            begun.answering .nothing
              (.actions actions :: .measured id entry.source :: frames)

/-- Goes on with the edits that follow a change of settings. -/
def rearmNext (session : Session) (rest : List DocumentId)
    (outcomes : List (DocumentId × EditOutcome)) (frames : List Frame) : Session :=
  match rest with
  | [] => session.answering (.outcomes outcomes) frames
  | id :: later => session.beginEdit id (.rearm id later outcomes :: frames)

/-- Changes the settings and edits the given documents one after the other.
Settings with a fault change nothing. -/
def reconfigure (session : Session) (settings : Settings)
    (ids : List DocumentId) (frames : List Frame) : Session :=
  let called := session.beginCall
  match settings.validate with
  | .error error => called.answering (.failure error) (.call :: frames)
  | .ok () => { called with settings }.rearmNext ids [] (.call :: frames)

/-- Begins a call to highlight a document at once.  The run is due immediately
and goes on as far as it can. -/
def beginNow (session : Session) (awaited : Bool) (id : DocumentId)
    (frames : List Frame) : Session :=
  let called := session.beginCall
  match called.registry.find? id with
  | none =>
      (called.reply (.call awaited) id
        (.failure (.documentNotFound id))).answering .nothing frames
  | some entry =>
      let superseded := (called.supersede id).setState id .pending
      let run : Run :=
        { id
          generation := entry.generation + 1
          source := entry.source
          config := called.settings.workerConfig
          origin := .call awaited
          phase := .due }
      { superseded with runs := superseded.runs ++ [run] }.requestLock run frames

end LogTint.Session
