import LogTint.Proofs.Operations
import LogTint.Schedule.Settle
import Mathlib.Logic.Relation

/-!
# Effects

A move does many things at once.  Taken apart, it is a chain of effects, each
of which changes one thing for one reason, and what the frames of a session
have yet to do for documents is kept beside it as its debts.  Every invariant
of sessions is proved effect by effect.
-/

namespace LogTint

/-- What a host can tell of a document by looking at it. -/
def Source.content (source : Source) : Buffer × LengthRule :=
  (source.buffer, source.lengthRule)

/-- Counts that come with no change of a document. -/
def Occurrence.isBookkeeping : Occurrence → Bool
  | .edit | .cacheHit | .cacheMiss | .computed _ => true
  | _ => false

/-- Whether an event tells what the host itself did. -/
def Event.isRemark : Event → Bool
  | .acted _ _ | .returned _ _ => true
  | _ => false

/-- What the frames of a session have yet to do for documents. -/
structure Debts where
  /-- Documents that have yet to be edited. -/
  edits : List DocumentId
  /-- Documents whose length is asked for, and of which source. -/
  lengths : List (DocumentId × SourceId)
  /-- Runs that are reading their document. -/
  texts : List Run

namespace Debts

instance : Append Debts where
  append left right :=
    ⟨left.edits ++ right.edits, left.lengths ++ right.lengths,
      left.texts ++ right.texts⟩

/-- One more document has yet to be edited. -/
def oweEdit (debts : Debts) (id : DocumentId) : Debts :=
  { debts with edits := id :: debts.edits }

/-- A document has been edited and nothing more is owed to it. -/
def settle (debts : Debts) (id : DocumentId) : Debts :=
  { debts with edits := debts.edits.filter (· ≠ id) }

theorem mem_settle {debts : Debts} {id other : DocumentId} :
    other ∈ (debts.settle id).edits ↔ other ∈ debts.edits ∧ other ≠ id := by
  simp [settle]

end Debts

/-- What a frame has yet to do for documents. -/
def Frame.debts : Frame → Debts
  | .measured id source => ⟨[id], [(id, source)], []⟩
  | .snapshot run => ⟨[], [], [run]⟩
  | .rearm _ rest _ => ⟨rest, [], []⟩
  | .host | .call | .acted _ | .actions _ => ⟨[], [], []⟩

namespace Debts

/-- What a stack of frames has yet to do for documents. -/
def ofFrames : List Frame → Debts
  | [] => ⟨[], [], []⟩
  | frame :: frames => frame.debts ++ ofFrames frames

end Debts

/-- What a session in progress has yet to do for documents. -/
def Session.debts (session : Session) : Debts := .ofFrames session.control.frames

/-- What an effect is noted for, when moves are told apart by their effects. -/
inductive EffectKind where
  | inner
  /-- The host changes its documents. -/
  | rewriting
  /-- The computation of the run with this key breaks off. -/
  | breakdown (key : DocumentId × Nat)
  /-- Highlights are delivered. -/
  | publication
  /-- The host is told something of a document that is not tracked any more. -/
  | unheeded (id : DocumentId)

/-- One change of a session for one reason. -/
inductive Effect : EffectKind → Debts × Session → Debts × Session → Prop where
  /-- Time passes, or the host, its calls or the reading of documents go on. -/
  | aside {debts session clock sources held calls control answer}
      (later : session.clock ≤ clock)
      (contents :
        sources.map Source.content = session.sources.map Source.content)
      (holding : held = true → session.held = true) :
      Effect .inner (debts, session)
        (debts, { session with clock, sources, held, calls, control, answer })
  /-- The host changes the texts of its documents or creates one. -/
  | rewrite {debts session sources}
      (longer : session.sources.length ≤ sources.length) :
      Effect .rewriting (debts, session) (debts, { session with sources })
  | count {debts session} (occurrence : Occurrence)
      (bookkeeping : occurrence.isBookkeeping) :
      Effect .inner (debts, session) (debts, session.count occurrence)
  | remark {debts session} (event : Event) (remark : event.isRemark) :
      Effect .inner (debts, session) (debts, session.note event)
  | register {debts session} (source : SourceId) (held : session.held = true) :
      Effect .inner (debts, session)
        (debts,
          { session with
            nextId := session.nextId + 1
            registry :=
              session.registry.add ⟨⟨session.nextId⟩, source, .idle, 0, none⟩
          }.count .documentRegistered)
  /-- A document is released and the host is told. -/
  | unregister {debts session id} (tracked : session.registry.contains id) :
      Effect .inner (debts, session) (debts, session.releaseAndTell id)
  /-- A document is released and the host is going to be told. -/
  | abandon {debts session id} (tracked : session.registry.contains id) :
      Effect .inner (debts, session) (debts, (session.release id).sendNotice id)
  | tell {debts session notice} (member : notice ∈ session.notices) :
      Effect .inner (debts, session)
        (debts,
          { session with notices := session.notices.erase notice }.note
            (.closed notice.id))
  /-- The settings change; every tracked document has yet to be edited. -/
  | reconfigure {debts session} (settings : Settings) :
      Effect .inner (debts, session)
        ({ debts with edits := session.registry.ids ++ debts.edits },
          { session with settings })
  /-- An edit finds the document over the ceiling. -/
  | bypass {debts session id entry document}
      (found : session.registry.find? id = some entry)
      (measured : session.sources[entry.source]? = some document)
      (above : session.settings.maxChars < document.length) :
      Effect .inner (debts, session)
        (debts.settle id,
          ((session.supersede id).setState id .idle).count .bypassed)
  /-- An edit arms a run. -/
  | arm {debts session id entry}
      (found : session.registry.find? id = some entry) :
      Effect .inner (debts, session)
        (debts.settle id,
          ((session.supersede id).setState id .pending).arm id entry.source
            (entry.generation + 1) session.settings.workerConfig)
  /-- A call asks for a run at once. -/
  | call {debts session id entry} (awaited : Bool)
      (found : session.registry.find? id = some entry) :
      Effect .inner (debts, session)
        (debts.settle id,
          { (session.supersede id).setState id .pending with
            runs := ((session.supersede id).setState id .pending).runs ++
              [{ id
                 generation := entry.generation + 1
                 source := entry.source
                 config := session.settings.workerConfig
                 origin := .call awaited
                 phase := .due }] })
  | wake {debts session run deadline} (member : run ∈ session.runs)
      (sleeping : run.phase = .sleeping deadline)
      (passed : deadline ≤ session.clock) :
      Effect .inner (debts, session) (debts, session.enterPhase run .due)
  | wait {debts session run} (member : run ∈ session.runs)
      (due : run.phase = .due) :
      Effect .inner (debts, session) (debts, session.enterPhase run .waiting)
  /-- A run whose edit is still the latest begins to read. -/
  | start {debts session run advanced} (member : run ∈ session.runs)
      (ready : run.phase = .due ∨ run.phase = .granted)
      (advance : session.advanceState? run .pending .computing = some advanced)
      (alive : session.isAlive run.source) :
      Effect .inner (debts, session)
        ({ debts with texts := { run with phase := .reading } :: debts.texts },
          advanced.enterPhase run .reading)
  /-- A run has read a text within its ceiling. -/
  | read {debts session run texts document} (owed : debts.texts = run :: texts)
      (source : session.sources[run.source]? = some document)
      (within : document.text.exceeds run.config.maxChars = false) :
      Effect .inner (debts, session)
        ({ debts with texts }, session.enterPhase run (.computing document.text))
  /-- A run has read a text over its ceiling. -/
  | overrun {debts session run texts document}
      (owed : debts.texts = run :: texts)
      (source : session.sources[run.source]? = some document)
      (above : document.text.exceeds run.config.maxChars = true)
      (tracked : session.registry.contains run.id) :
      Effect .inner (debts, session)
        ({ debts with texts },
          ((((session.advanceState? run .computing .idle).getD session).count
            .oversized).note (.bypass run.id document.text.length)).removeRun run)
  | complete {debts session run text} (member : run ∈ session.runs)
      (computing : run.phase = .computing text) :
      Effect .inner (debts, session) (debts, session.complete run text)
  | breakOff {debts session run text} (reason : String)
      (member : run ∈ session.runs) (computing : run.phase = .computing text) :
      Effect (.breakdown run.key) (debts, session)
        (debts, session.breakOff run reason)
  /-- A run that was overtaken ends. -/
  | stale {debts session run} (after : DocumentState)
      (member : run ∈ session.runs) (ready : run.phase.isReady)
      (overtaken : session.advanceState? run run.phase.state after = none) :
      Effect .inner (debts, session)
        (debts, (session.count .discarded).removeRun run)
  /-- A run ends that found its document given up. -/
  | drop {debts session run} (member : run ∈ session.runs)
      (ready : run.phase.isReady) (gone : session.isAlive run.source = false) :
      Effect .inner (debts, session) (debts, (session.closeDropped run).removeRun run)
  | publish {debts session run text highlights lookup advanced}
      (member : run ∈ session.runs)
      (computed : run.phase = .computed text highlights lookup)
      (advance : session.advanceState? run .computing .idle = some advanced)
      (alive : session.isAlive run.source) :
      Effect .publication (debts, session)
        (debts,
          ((advanced.count .published).note
            (.highlights run.id ⟨run.generation, text, highlights⟩)).removeRun run)
  /-- A run whose computation broke off reports it. -/
  | report {debts session run reason} (member : run ∈ session.runs)
      (failed : run.phase = .failed reason)
      (tracked : session.registry.contains run.id) :
      Effect .inner (debts, session)
        (debts,
          ((((session.advanceState? run .computing .idle).getD session).count
            .computeError).note
              (.error run.id (.computationFailed reason))).removeRun run)
  /-- A run has read a text over its ceiling from a document that is not
  tracked any more. -/
  | overrunUntracked {debts session run texts document}
      (owed : debts.texts = run :: texts)
      (source : session.sources[run.source]? = some document)
      (above : document.text.exceeds run.config.maxChars = true)
      (untracked : session.registry.find? run.id = none) :
      Effect (.unheeded run.id) (debts, session)
        ({ debts with texts },
          ((session.count .oversized).note
            (.bypass run.id document.text.length)).removeRun run)
  /-- A run whose computation broke off reports it of a document that is not
  tracked any more. -/
  | reportUntracked {debts session run reason} (member : run ∈ session.runs)
      (failed : run.phase = .failed reason)
      (untracked : session.registry.find? run.id = none) :
      Effect (.unheeded run.id) (debts, session)
        (debts,
          ((session.count .computeError).note
            (.error run.id (.computationFailed reason))).removeRun run)
  | clearCache {debts session} :
      Effect .inner (debts, session)
        (debts, { session with cache := session.cache.map Cache.clear })
  /-- The scheduler goes. -/
  | close {debts session} (released : session.held = false)
      (present : session.dropped = false) :
      Effect .inner (debts, session) (debts, session.close)
  /-- The length of a document is asked for. -/
  | measure {debts session id entry}
      (found : session.registry.find? id = some entry) :
      Effect .inner (debts, session)
        ({ debts.oweEdit id with lengths := (id, entry.source) :: debts.lengths },
          session)
  /-- A document that is not tracked is owed nothing. -/
  | forget {debts session id} (untracked : session.registry.find? id = none) :
      Effect .inner (debts, session) (debts.settle id, session)
  /-- It is safe to owe more edits and to ask for fewer lengths. -/
  | weaken {debts after session} (edits : debts.edits ⊆ after.edits)
      (lengths : after.lengths ⊆ debts.lengths)
      (texts : after.texts = debts.texts) :
      Effect .inner (debts, session) (after, session)

/-- Any effect, whatever it is noted for. -/
def AnyEffect (before after : Debts × Session) : Prop :=
  ∃ kind, Effect kind before after

/-- A chain of effects of which none stands out. -/
abbrev Inner : Debts × Session → Debts × Session → Prop :=
  Relation.ReflTransGen (Effect .inner)

/-- A chain of effects. -/
abbrev Effects : Debts × Session → Debts × Session → Prop :=
  Relation.ReflTransGen AnyEffect

theorem Effect.any {kind : EffectKind} {before after : Debts × Session}
    (effect : Effect kind before after) : Effects before after :=
  .single ⟨kind, effect⟩

theorem Inner.effects {before after : Debts × Session} (inner : Inner before after) :
    Effects before after :=
  Relation.ReflTransGen.mono (fun _ _ effect => ⟨.inner, effect⟩) _ _ inner

/-- What every effect of a chain keeps is kept by the chain. -/
theorem Inner.induct (Holds : Debts → Session → Prop)
    (keeps : ∀ {debts session after final},
      Effect .inner (debts, session) (after, final) → Holds debts session →
        Holds after final)
    {before after : Debts × Session} (inner : Inner before after)
    (holds : Holds before.1 before.2) : Holds after.1 after.2 := by
  induction inner with
  | refl => exact holds
  | tail _ last induction => exact keeps last induction

/-- What every effect keeps is kept by every chain of effects. -/
theorem Effects.induct (Holds : Debts → Session → Prop)
    (keeps : ∀ {kind debts session after final},
      Effect kind (debts, session) (after, final) → Holds debts session →
        Holds after final)
    {before after : Debts × Session} (effects : Effects before after)
    (holds : Holds before.1 before.2) : Holds after.1 after.2 := by
  induction effects with
  | refl => exact holds
  | tail _ last induction =>
      obtain ⟨kind, effect⟩ := last
      exact keeps effect induction

end LogTint
