import LogTint.Proofs.Runs
import LogTint.Schedule.Report

/-!
# The strand of one document

As long as no document acts when it is read, a session is a bundle of strands,
one for each document.  A strand tells what the steps of the host do to one
document.  It knows nothing of the other documents, of the cache and of the
order in which runs take their turns: a run that is due goes on to its end at
once.
-/

namespace LogTint

/-- The document without the actions that it has left. -/
def Source.unscripted (source : Source) : Source :=
  { source with onSnapshot := [], onLength := [] }

namespace Source

@[simp] theorem unscripted_isAlive (source : Source) :
    source.unscripted.isAlive = source.isAlive := rfl

@[simp] theorem unscripted_text (source : Source) :
    source.unscripted.text = source.text := rfl

@[simp] theorem unscripted_length (source : Source) :
    source.unscripted.length = source.length := rfl

@[simp] theorem unscripted_canEdit (source : Source) :
    source.unscripted.canEdit = source.canEdit := rfl

@[simp] theorem unscripted_held (source : Source) :
    source.unscripted.held = source.held := rfl

/-- The document without its text. -/
def husk (source : Source) : Source := { source with buffer := .ofText [] }

@[simp] theorem husk_held (source : Source) : source.husk.held = source.held := rfl

@[simp] theorem husk_canEdit (source : Source) :
    source.husk.canEdit = source.canEdit := rfl

@[simp] theorem husk_isAlive (source : Source) :
    source.husk.isAlive = source.isAlive := rfl

end Source

/-- What is under way for a document. -/
structure Work where
  config : WorkerConfig
  origin : Origin
  phase : Phase

/-- What a strand knows of a tracked document. -/
structure Tracked where
  source : SourceId
  generation : Nat
  work? : Option Work

namespace Tracked

/-- The document after an edit. -/
def renewed (tracked : Tracked) (work? : Option Work) : Tracked :=
  { tracked with generation := tracked.generation + 1, work? }

/-- The document with nothing under way. -/
def rested (tracked : Tracked) : Tracked := { tracked with work? := none }

/-- The document with some work under way. -/
def during (tracked : Tracked) (work : Work) : Tracked :=
  { tracked with work? := some work }

end Tracked

/-- How a run ends. -/
inductive Ending where
  /-- The document was given up. -/
  | closed
  | oversized (chars : Nat)
  | published (publication : Publication)

namespace Ending

/-- What the host is told. -/
def event (id : DocumentId) : Ending → Event
  | .closed => .closed id
  | .oversized chars => .bypass id chars
  | .published publication => .highlights id publication

/-- What a call is answered. -/
def answer (id : DocumentId) : Ending → Answer
  | .closed => .failure (.documentClosed id)
  | .oversized _ => .published none
  | .published publication => .published (some publication)

/-- What is left of the document. -/
def leaves (tracked : Tracked) : Ending → Option Tracked
  | .closed => none
  | .oversized _ | .published _ => some tracked.rested

end Ending

/-- The registered document that a step names. -/
def Step.document? : Step → Option DocumentId
  | .act action => action.document?
  | .highlightNow id => some id
  | .create _ | .advance _ => none

/-- Whether an event tells something of a document. -/
def Event.isAbout (id : DocumentId) : Event → Bool
  | .highlights other _ | .bypass other _ | .error other _ | .closed other
  | .returned other _ => decide (other = id)
  | .acted _ _ => false

/-- What the host was told of a document, with the time. -/
def Session.eventsOf (session : Session) (id : DocumentId) : List (Nat × Event) :=
  session.log.filter (·.2.isAbout id)

/-- What a session holds that matters to one document. -/
structure Strand where
  id : DocumentId
  clock : Nat
  sources : List Source
  settings : Settings
  nextId : Nat
  /-- Whether the host still holds the scheduler. -/
  held : Bool
  tracked? : Option Tracked
  /-- What the host was told of the document, with the time. -/
  events : List (Nat × Event)

namespace Strand

/-- A document of the host that is alive. -/
def living? (strand : Strand) (source : SourceId) : Option Source :=
  strand.sources[source]?.filter Source.isAlive

def tell (strand : Strand) (event : Event) : Strand :=
  { strand with events := strand.events ++ [(strand.clock, event)] }

/-- The document is not tracked any more and the host is told. -/
def drop (strand : Strand) : Strand :=
  { strand with tracked? := none }.tell (.closed strand.id)

/-- How a run ends that has computed. -/
def conclusion (strand : Strand) (tracked : Tracked) (text : Text)
    (highlights : Highlights) : Ending :=
  match strand.living? tracked.source with
  | none => .closed
  | some _ => .published ⟨tracked.generation, text, highlights⟩

/-- How a run ends that has yet to read its document. -/
def reading (strand : Strand) (tracked : Tracked) (config : WorkerConfig) : Ending :=
  match strand.living? tracked.source with
  | none => .closed
  | some document =>
      if document.text.exceeds config.maxChars then .oversized document.text.length
      else
        .published ⟨tracked.generation, document.text,
          Highlights.compute document.text config.highlight⟩

/-- How the run of a document ends unless it is asleep. -/
def endingOf? (strand : Strand) (tracked : Tracked) (work : Work) : Option Ending :=
  match work.phase with
  | .due => some (strand.reading tracked work.config)
  | .computing text =>
      some (strand.conclusion tracked text
        (Highlights.compute text work.config.highlight))
  | .computed text highlights _ => some (strand.conclusion tracked text highlights)
  | _ => none

/-- Hands the result of a run to a caller that does not wait for it. -/
def reply (strand : Strand) (origin : Origin) (answer : Answer) : Strand :=
  match origin with
  | .call false => strand.tell (.returned strand.id answer)
  | _ => strand

/-- Ends the run of a document. -/
def conclude (strand : Strand) (tracked : Tracked) (origin : Origin)
    (ending : Ending) : Strand :=
  ({ strand with tracked? := ending.leaves tracked }.tell
    (ending.event strand.id)).reply origin (ending.answer strand.id)

/-- Lets the run of the document go on to its end unless it is asleep. -/
def finish (strand : Strand) : Strand :=
  match strand.tracked? with
  | none => strand
  | some tracked =>
      match tracked.work? with
      | none => strand
      | some work =>
          match strand.endingOf? tracked work with
          | none => strand
          | some ending => strand.conclude tracked work.origin ending

/-- The result that the host is going to be answered, if it waits for one. -/
def awaited? (strand : Strand) : Option Answer :=
  match strand.tracked? with
  | none => none
  | some tracked =>
      match tracked.work? with
      | none => none
      | some work =>
          if work.origin = .call true then
            (strand.endingOf? tracked work).map (·.answer strand.id)
          else none

/-- A run that sleeps from now on. -/
def timer (strand : Strand) : Work :=
  ⟨strand.settings.workerConfig, .timer,
    .sleeping (strand.clock + strand.settings.debounce)⟩

def edit (strand : Strand) : Answer × Strand :=
  match strand.tracked? with
  | none => (.failure (.documentNotFound strand.id), strand)
  | some tracked =>
      match strand.living? tracked.source with
      | none => (.failure (.documentClosed strand.id), strand.drop)
      | some document =>
          if strand.settings.maxChars < document.length then
            (.outcome .bypassed, { strand with tracked? := some (tracked.renewed none) })
          else
            (.outcome .scheduled,
              { strand with tracked? := some (tracked.renewed (some strand.timer)) })

theorem edit_unknown {strand : Strand} (unknown : strand.tracked? = none) :
    strand.edit = (.failure (.documentNotFound strand.id), strand) := by
  rw [edit, unknown]

theorem edit_gone {strand : Strand} {tracked : Tracked}
    (known : strand.tracked? = some tracked)
    (gone : strand.living? tracked.source = none) :
    strand.edit = (.failure (.documentClosed strand.id), strand.drop) := by
  rw [edit, known]
  dsimp only
  rw [gone]

theorem edit_living {strand : Strand} {tracked : Tracked} {document : Source}
    (known : strand.tracked? = some tracked)
    (living : strand.living? tracked.source = some document) :
    strand.edit =
      (if strand.settings.maxChars < document.length then .outcome .bypassed
        else .outcome .scheduled,
      { strand with
        tracked? := some (tracked.renewed
          (if strand.settings.maxChars < document.length then none
            else some strand.timer)) }) := by
  rw [edit, known]
  dsimp only
  rw [living]
  dsimp only
  split <;> rfl

/-- The document with a run that is due on behalf of a call. -/
def asked (strand : Strand) (tracked : Tracked) (awaited : Bool) : Strand :=
  { strand with
    tracked? := some (tracked.renewed
      (some ⟨strand.settings.workerConfig, .call awaited, .due⟩)) }

def call (strand : Strand) (awaited : Bool) : Strand :=
  match strand.tracked? with
  | none =>
      strand.reply (.call awaited) (.failure (.documentNotFound strand.id))
  | some tracked => (strand.asked tracked awaited).finish

/-- What a call that is waited for is answered. -/
def callAnswer (strand : Strand) : Answer :=
  match strand.tracked? with
  | none => .failure (.documentNotFound strand.id)
  | some tracked => ((strand.asked tracked true).awaited?).getD .nothing

/-- When the timer of the document fires, and the document then. -/
def timer? (strand : Strand) : Option (Nat × Tracked) :=
  match strand.tracked? with
  | none => none
  | some tracked =>
      match tracked.work? with
      | none => none
      | some work =>
          work.phase.deadline?.map fun deadline =>
            (deadline, tracked.during { work with phase := .due })

/-- Moves the clock to a time.  A timer on the way fires at its deadline. -/
def advanceTo (strand : Strand) (time : Nat) : Strand :=
  match strand.timer? with
  | none => { strand with clock := time }
  | some (deadline, woken) =>
      if deadline ≤ time then
        { { strand with clock := deadline, tracked? := some woken }.finish with
          clock := time }
      else { strand with clock := time }

/-- Changes a document of the host. -/
def modifySource (strand : Strand) (source : SourceId) (change : Source → Source) :
    Strand :=
  { strand with sources := strand.sources.modify source change }

def rewrite (strand : Strand) (source : SourceId) (change : Buffer → Buffer) : Strand :=
  match strand.sources[source]?.filter Source.canEdit with
  | none => strand
  | some _ =>
      strand.modifySource source fun document =>
        { document with buffer := change document.buffer }

/-- The document given up if its source is. -/
def sweep (strand : Strand) : Strand :=
  match strand.tracked? with
  | none => strand
  | some tracked =>
      match strand.living? tracked.source with
      | none => strand.drop
      | some _ => strand

def register (strand : Strand) (source : SourceId) : Strand :=
  match strand.sources[source]?.filter (·.held) with
  | none => strand
  | some _ =>
      { strand with
        nextId := strand.nextId + 1
        tracked? :=
          if strand.id = ⟨strand.nextId⟩ then some ⟨source, 0, none⟩
          else strand.tracked? }

def release (strand : Strand) (source : SourceId) : Strand :=
  match strand.sources[source]?.filter (·.held) with
  | none => strand
  | some _ => strand.modifySource source fun document => { document with held := false }

/-- Stops tracking the document if it is tracked. -/
def unregister (strand : Strand) : Strand :=
  match strand.tracked? with
  | none => strand
  | some _ => strand.drop

def reconfigure (strand : Strand) (settings : Settings) : Strand :=
  match settings.validate with
  | .error _ => strand
  | .ok () => ({ strand with settings }.edit).2

def perform (strand : Strand) : Action → Strand
  | .replace source text => strand.rewrite source (·.replace text)
  | .append source text => strand.rewrite source (·.append text)
  | .release source => strand.release source
  | .register source => strand.register source
  | .edit id => if id = strand.id then strand.edit.2 else strand
  | .startNow id => if id = strand.id then strand.call false else strand
  | .unregister id => if id = strand.id then strand.unregister else strand
  | .sweep => strand.sweep
  | .shutdown => strand.unregister
  | .reconfigure settings => strand.reconfigure settings
  | .dropScheduler =>
      { strand with held := false, tracked? := strand.tracked?.map Tracked.rested }
  | .info _ | .contains _ | .settings | .clearCache | .describe => strand

/-- What a step of the host does to the document. -/
def step (strand : Strand) : Step → Strand
  | .create source =>
      { strand with sources := strand.sources ++ [source.unscripted] }
  | .act action =>
      if action.needsScheduler && !strand.held then strand
      else strand.perform action
  | .highlightNow id =>
      if strand.held && decide (id = strand.id) then strand.call true else strand
  | .advance duration => strand.advanceTo (strand.clock + duration)

def steps (strand : Strand) (steps : List Step) : Strand := steps.foldl step strand

/-- How the host sees the document. -/
def info? (strand : Strand) : Option DocumentInfo :=
  strand.tracked?.map fun tracked =>
    ⟨strand.id,
      if strand.held then
        match tracked.work? with
        | none => .idle
        | some work => work.phase.state
      else .closed,
      tracked.generation⟩

/-- What a step that names the document is answered. -/
def answer (strand : Strand) : Step → Answer
  | .act (.edit _) => if strand.held then strand.edit.1 else .noScheduler
  | .act (.unregister _) =>
      if strand.held then
        if strand.tracked?.isSome then .done
        else .failure (.documentNotFound strand.id)
      else .noScheduler
  | .act (.info _) => if strand.held then .info strand.info? else .noScheduler
  | .act (.contains _) =>
      if strand.held then .flag strand.tracked?.isSome else .noScheduler
  | .act (.startNow _) => if strand.held then .nothing else .noScheduler
  | .highlightNow _ => if strand.held then strand.callAnswer else .noScheduler
  | _ => .nothing

end Strand

end LogTint
