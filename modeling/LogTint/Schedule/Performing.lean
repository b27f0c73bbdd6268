import LogTint.Schedule.Editing

/-!
# Carrying out actions

Every action is answered in the end, at once or after documents have acted.
-/

namespace LogTint.Session

/-- Changes the text of a document that the host can still change. -/
def rewriteSource (session : Session) (source : SourceId)
    (change : Buffer → Buffer) : Answer × Session :=
  match session.sources[source]?.filter Source.canEdit with
  | none => (.flag false, session)
  | some _ =>
      (.flag true, session.modifySource source fun document =>
        { document with buffer := change document.buffer })

/-- Gives up a document that the host still holds. -/
def releaseSource (session : Session) (source : SourceId) : Answer × Session :=
  match session.sources[source]?.filter (·.held) with
  | none => (.flag false, session)
  | some _ =>
      (.flag true, session.modifySource source fun document =>
        { document with held := false })

/-- Begins to track a document that the host still holds. -/
def register (session : Session) (source : SourceId) : Answer × Session :=
  match session.sources[source]?.filter (·.held) with
  | none => (.noDocument, session)
  | some _ =>
      let id : DocumentId := ⟨session.nextId⟩
      (.registered id,
        { session with
          nextId := session.nextId + 1
          registry := session.registry.add ⟨id, source, .idle, 0, none⟩
        }.count .documentRegistered)

/-- Stops tracking a document and tells the host. -/
def releaseAndTell (session : Session) (id : DocumentId) : Session :=
  (session.release id).note (.closed id)

/-- Stops tracking a document at the host's wish. -/
def unregister (session : Session) (id : DocumentId) : Answer × Session :=
  if session.registry.contains id then (.done, session.releaseAndTell id)
  else (.failure (.documentNotFound id), session)

def droppedIds (session : Session) : List DocumentId :=
  (session.registry.entries.filter fun entry =>
    !session.isAlive entry.source).map (·.id)

/-- Stops tracking the documents that were given up. -/
def sweep (session : Session) : Answer × Session :=
  let dropped := session.droppedIds
  (.count dropped.length, dropped.foldl releaseAndTell session)

def shutdown (session : Session) : Answer × Session :=
  let ids := session.registry.ids
  let released := ids.foldl release session
  (.done, ids.foldl (fun session id => session.note (.closed id)) released)

def describe (session : Session) : String :=
  let cache := match session.cache with
    | none => "None"
    | some cache => "Some(" ++ cache.render ++ ")"
  "HighlightScheduler \x7b document_count: " ++
    toString session.registry.size ++ ", next_id: " ++
    toString session.nextId ++ ", cache: " ++ cache ++ " \x7d"

/-- Carries out an action that needs no document to act, if it is one. -/
def performAtOnce? (session : Session) : Action → Option (Answer × Session)
  | .replace source text => some (session.rewriteSource source (·.replace text))
  | .append source text => some (session.rewriteSource source (·.append text))
  | .release source => some (session.releaseSource source)
  | .register source => some (session.register source)
  | .unregister id => some (session.unregister id)
  | .sweep => some session.sweep
  | .shutdown => some session.shutdown
  | .info id => some (.info ((session.registry.find? id).map Entry.info), session)
  | .contains id => some (.flag (session.registry.contains id), session)
  | .settings => some (.settings session.settings, session)
  | .clearCache =>
      some (.flag session.cache.isSome,
        { session with cache := session.cache.map Cache.clear })
  | .describe => some (.description session.describe, session)
  | .dropScheduler =>
      some (.flag session.held, if session.held then session.giveUp else session)
  | .edit _ | .startNow _ | .reconfigure _ => none

/-- Carries out an action and hands its answer to the frames. -/
def perform (session : Session) (action : Action) (frames : List Frame) : Session :=
  if action.needsScheduler && !session.held then
    session.answering .noScheduler frames
  else
    match action with
    | .edit id => session.beginEdit id frames
    | .startNow id => session.beginNow false id frames
    | .reconfigure settings =>
        session.reconfigure settings session.registry.ids frames
    | action =>
        match session.performAtOnce? action with
        | some (answer, after) => after.answering answer frames
        | none => session.answering .nothing frames

/-- Goes on with the frame that waited for an answer. -/
def resume (session : Session) (answer : Answer) (frame : Frame)
    (frames : List Frame) : Session :=
  match frame with
  | .host => { session with answer }.answering answer frames
  | .call => session.endCall.answering answer frames
  | .acted action => (session.note (.acted action answer)).answering answer frames
  | .actions [] => session.answering .nothing frames
  | .actions (action :: rest) =>
      { session with
        control := .perform action (.acted action :: .actions rest :: frames) }
  | .measured id source => session.finishEdit id source frames
  | .snapshot run => (session.takeSnapshot run).answering .nothing frames
  | .rearm id rest outcomes =>
      match answer with
      | .outcome outcome =>
          session.rearmNext rest (outcomes ++ [(id, outcome)]) frames
      | _ => session.rearmNext rest outcomes frames

end LogTint.Session
