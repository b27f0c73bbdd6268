import LogTint.Proofs.CacheSound
import LogTint.Schedule.Editing

/-!
# A session with a cache and its twin without one

Two sessions that take the same moves, one with a cache and one without, differ
in the traces that the cache leaves behind: its own counters, the time spent on
computations, where the highlights of a run came from, and what was answered to
whoever asked for the cache.  In everything else they are twins, and the
operations of the scheduler keep them so.
-/

namespace LogTint

/-! ## Traces of a cache -/

namespace Action

/-- Whether the answer to an action tells of the cache. -/
def readsCache : Action → Bool
  | .clearCache | .describe => true
  | _ => false

end Action

namespace Occurrence

/-- Whether the occurrence is counted otherwise when there is a cache. -/
def concernsCache : Occurrence → Bool
  | .cacheHit | .cacheMiss | .computed _ => true
  | _ => false

end Occurrence

namespace Event

/-- The event without an answer that tells of the cache. -/
def veiled : Event → Event
  | .acted action answer =>
      .acted action (if action.readsCache then .nothing else answer)
  | event => event

end Event

namespace Phase

/-- The phase of a run that did without a cache. -/
def uncached : Phase → Phase
  | .computed text highlights _ => .computed text highlights .uncached
  | phase => phase

/-- Whether a run in this phase has not done without a cache. -/
def usesCache : Phase → Bool
  | .computed _ _ .uncached => false
  | _ => true

@[simp] theorem uncached_holdsLock (phase : Phase) :
    phase.uncached.holdsLock = phase.holdsLock := by
  cases phase <;> rfl

@[simp] theorem uncached_isQueued (phase : Phase) :
    phase.uncached.isQueued = phase.isQueued := by
  cases phase <;> rfl

@[simp] theorem uncached_isReady (phase : Phase) :
    phase.uncached.isReady = phase.isReady := by
  cases phase <;> rfl

@[simp] theorem uncached_isComputing (phase : Phase) :
    phase.uncached.isComputing = phase.isComputing := by
  cases phase <;> rfl

@[simp] theorem uncached_deadline? (phase : Phase) :
    phase.uncached.deadline? = phase.deadline? := by
  cases phase <;> rfl

@[simp] theorem uncached_eq_waiting (phase : Phase) :
    phase.uncached = .waiting ↔ phase = .waiting := by
  cases phase <;> simp [uncached]

theorem uncached_of_isQueued {phase : Phase} (queued : phase.isQueued = true) :
    phase.uncached = phase := by
  cases phase with
  | computed => cases queued
  | _ => rfl

end Phase

namespace Run

/-- The run as it would be without a cache. -/
def uncached (run : Run) : Run := { run with phase := run.phase.uncached }

@[simp] theorem uncached_phase (run : Run) :
    run.uncached.phase = run.phase.uncached := rfl

@[simp] theorem uncached_isAwaited (run : Run) :
    run.uncached.isAwaited = run.isAwaited := rfl

theorem uncached_of_isQueued {run : Run} (queued : run.phase.isQueued = true) :
    run.uncached = run := by
  rw [uncached, Phase.uncached_of_isQueued queued]

/-- A run in line is among the runs whether or not there is a cache. -/
theorem mem_uncached_iff {run : Run} {runs : List Run}
    (queued : run.phase.isQueued = true) :
    run ∈ runs.map uncached ↔ run ∈ runs := by
  constructor
  · intro member
    obtain ⟨other, otherMember, rfl⟩ := List.mem_map.mp member
    have otherQueued : other.phase.isQueued = true := by
      simpa [uncached] using queued
    rwa [uncached_of_isQueued otherQueued]
  · intro member
    exact List.mem_map.mpr ⟨run, member, uncached_of_isQueued queued⟩

end Run

namespace Frame

/-- Whether it makes a difference what a stack of frames is answered. -/
def heeded : List Frame → Bool
  | [] => false
  | .host :: _ | .rearm _ _ _ :: _ => true
  | .acted action :: frames => !action.readsCache || heeded frames
  | .call :: frames => heeded frames
  | .actions _ :: _ | .measured _ _ :: _ | .snapshot _ :: _ => false

end Frame

/-! ## Twin sessions -/

/-- Every occurrence is counted alike, but for what the cache answers instead of
a computation.  How long computations take is left open on both sides. -/
structure Metrics.Twins (cached plain : Metrics) : Prop where
  computations : cached.computations = cached.misses
  lookups : cached.hits + cached.misses = plain.computations
  others :
    { cached with hits := 0, misses := 0, computations := 0, nanoseconds := 0 } =
      { plain with hits := 0, misses := 0, computations := 0, nanoseconds := 0 }

/-- The same is being carried out.  Answers may differ if that makes no
difference. -/
inductive Control.Twins : Control → Control → Prop where
  | idle : Twins .idle .idle
  | perform (action : Action) (frames : List Frame)
      (ignored : action.readsCache = true → Frame.heeded frames = false) :
      Twins (.perform action frames) (.perform action frames)
  | answer {left right : Answer} {frames : List Frame}
      (same : Frame.heeded frames = true → left = right) :
      Twins (.answer left frames) (.answer right frames)

/-- What happened, without the answers that tell of the cache. -/
def Session.veiledLog (session : Session) : List (Nat × Event) :=
  session.log.map (Prod.map id Event.veiled)

/-- A session with a cache and one without that differ in the traces of the
cache alone.  They may differ in the latest answer if the host does not
look. -/
structure Session.Twins (unseen : Bool) (cached plain : Session) : Prop where
  clock : plain.clock = cached.clock
  sources : plain.sources = cached.sources
  settings : plain.settings = cached.settings
  registry : plain.registry = cached.registry
  nextId : plain.nextId = cached.nextId
  notices : plain.notices = cached.notices
  held : plain.held = cached.held
  calls : plain.calls = cached.calls
  dropped : plain.dropped = cached.dropped
  runs : plain.runs = cached.runs.map Run.uncached
  usesCache : ∀ run ∈ cached.runs, run.phase.usesCache = true
  ahead : ∀ notice ∈ cached.notices, ∀ run ∈ notice.ahead,
    run.phase.isQueued = true
  sound : ∃ cache, cached.cache = some cache ∧ cache.Sound
  without : plain.cache = none
  metrics : cached.metrics.Twins plain.metrics
  control : cached.control.Twins plain.control
  answer : unseen = false → plain.answer = cached.answer
  log : plain.veiledLog = cached.veiledLog

namespace Metrics.Twins

variable {cached plain : Metrics}

theorem record (twins : cached.Twins plain) {occurrence : Occurrence}
    (elsewhere : occurrence.concernsCache = false) :
    (cached.record occurrence).Twins (plain.record occurrence) := by
  obtain ⟨computations, lookups, others⟩ := twins
  simp only [Metrics.mk.injEq, true_and] at others
  cases occurrence with
  | cacheHit | cacheMiss | computed => cases elsewhere
  | _ => exact ⟨computations, lookups, by simp [Metrics.record, others]⟩

theorem hit (twins : cached.Twins plain) (nanoseconds : Nat) :
    (cached.record .cacheHit).Twins (plain.record (.computed nanoseconds)) := by
  obtain ⟨computations, lookups, others⟩ := twins
  simp only [Metrics.mk.injEq, true_and] at others
  refine ⟨computations, ?_, by simp [Metrics.record, others]⟩
  calc cached.hits + 1 + cached.misses
    _ = cached.hits + cached.misses + 1 := by grind
    _ = plain.computations + 1 := by rw [lookups]

theorem miss (twins : cached.Twins plain) (first second : Nat) :
    ((cached.record .cacheMiss).record (.computed first)).Twins
      (plain.record (.computed second)) := by
  obtain ⟨computations, lookups, others⟩ := twins
  simp only [Metrics.mk.injEq, true_and] at others
  refine ⟨?_, ?_, by simp [Metrics.record, others]⟩
  · calc cached.computations + 1
      _ = cached.misses + 1 := by rw [computations]
  · calc cached.hits + (cached.misses + 1)
      _ = cached.hits + cached.misses + 1 := by grind
      _ = plain.computations + 1 := by rw [lookups]

end Metrics.Twins

namespace Session

@[simp] theorem removeRun_uncached (session : Session) (run : Run) :
    session.removeRun run.uncached = session.removeRun run := by
  rw [removeRun, removeRun, Run.uncached_phase, Phase.uncached_holdsLock]
  rfl

namespace Twins

variable {unseen : Bool} {cached plain : Session}

/-- Sessions that are changed under the same condition are twins if they are in
either case. -/
theorem ite {cachedThen plainThen cachedElse plainElse : Session} {left right : Prop}
    [Decidable left] [Decidable right] (same : right ↔ left)
    (holding : Twins unseen cachedThen plainThen)
    (failing : Twins unseen cachedElse plainElse) :
    Twins unseen (if left then cachedThen else cachedElse)
      (if right then plainThen else plainElse) := by
  by_cases holds : left
  · rwa [if_pos holds, if_pos (same.mpr holds)]
  · rwa [if_neg holds, if_neg (mt same.mp holds)]

/-! ### Small changes -/

theorem count (twins : Twins unseen cached plain) (occurrence : Occurrence)
    (elsewhere : occurrence.concernsCache = false) :
    Twins unseen (cached.count occurrence) (plain.count occurrence) :=
  { twins with metrics := twins.metrics.record elsewhere }

theorem note (twins : Twins unseen cached plain) {left right : Event}
    (same : right.veiled = left.veiled) :
    Twins unseen (cached.note left) (plain.note right) :=
  { twins with
    log := by
      have log := twins.log
      rw [veiledLog, veiledLog] at log
      simp [veiledLog, Session.note, log, twins.clock, same] }

theorem answering (twins : Twins unseen cached plain) {left right : Answer}
    {frames : List Frame} (same : Frame.heeded frames = true → left = right) :
    Twins unseen (cached.answering left frames) (plain.answering right frames) :=
  { twins with control := .answer same }

theorem modifySource (twins : Twins unseen cached plain) (source : SourceId)
    (change : Source → Source) :
    Twins unseen (cached.modifySource source change)
      (plain.modifySource source change) :=
  { twins with sources := by simp [Session.modifySource, twins.sources] }

theorem modifyEntry (twins : Twins unseen cached plain) (id : DocumentId)
    (change : Entry → Entry) :
    Twins unseen (cached.modifyEntry id change) (plain.modifyEntry id change) :=
  { twins with registry := by simp [Session.modifyEntry, twins.registry] }

theorem isAlive (twins : Twins unseen cached plain) (source : SourceId) :
    plain.isAlive source = cached.isAlive source := by
  rw [Session.isAlive, twins.sources, Session.isAlive]

/-! ### Runs -/

theorem findRun? (twins : Twins unseen cached plain) (id : DocumentId)
    (generation : Nat) :
    plain.findRun? id generation =
      (cached.findRun? id generation).map Run.uncached := by
  rw [Session.findRun?, twins.runs, List.find?_map]
  rfl

theorem isLocked (twins : Twins unseen cached plain) (id : DocumentId) :
    plain.isLocked id = cached.isLocked id := by
  rw [Session.isLocked, twins.runs, List.any_map, Session.isLocked]
  congr 1
  funext run
  change (decide (run.id = id) && run.phase.uncached.holdsLock) = _
  rw [Phase.uncached_holdsLock]

/-- Sessions are twins still when the same runs are left out. -/
theorem filterRuns (twins : Twins unseen cached plain) (keeps : Run → Bool)
    (same : ∀ run, keeps run.uncached = keeps run) :
    Twins unseen { cached with runs := cached.runs.filter keeps }
      { plain with runs := plain.runs.filter keeps } :=
  { twins with
    runs := by simp [twins.runs, List.filter_map, Function.comp_def, same]
    usesCache := fun run member =>
      twins.usesCache run (List.mem_filter.mp member).1 }

theorem addRun (twins : Twins unseen cached plain) (run : Run)
    (uses : run.phase.usesCache = true) :
    Twins unseen { cached with runs := cached.runs ++ [run] }
      { plain with runs := plain.runs ++ [run.uncached] } :=
  { twins with
    runs := by simp [twins.runs]
    usesCache := fun other member => by
      rcases List.mem_append.mp member with earlier | last
      · exact twins.usesCache other earlier
      · cases List.mem_singleton.mp last
        exact uses }

theorem enterPhase (twins : Twins unseen cached plain) (run : Run)
    (phase : Phase) (uses : phase.usesCache = true) :
    Twins unseen (cached.enterPhase run phase)
      (plain.enterPhase run phase.uncached) :=
  (twins.filterRuns _ fun _ => rfl).addRun { run with phase } uses

theorem passLock (twins : Twins unseen cached plain) (id : DocumentId) :
    Twins unseen (cached.passLock id) (plain.passLock id) := by
  have found :
      (plain.runs.find? fun run =>
        decide (run.id = id) && decide (run.phase = .waiting)) =
      (cached.runs.find? fun run =>
        decide (run.id = id) && decide (run.phase = .waiting)).map Run.uncached := by
    rw [twins.runs, List.find?_map]
    congr 2
    funext run
    change (decide (run.id = id) && decide (run.phase.uncached = .waiting)) = _
    simp only [Phase.uncached_eq_waiting]
  rw [Session.passLock, Session.passLock, found]
  split
  case h_1 run success =>
    rw [success]
    exact twins.enterPhase run _ rfl
  case h_2 missing =>
    rw [missing]
    exact twins

theorem removeRun (twins : Twins unseen cached plain) (run : Run) :
    Twins unseen (cached.removeRun run) (plain.removeRun run) := by
  have remaining := twins.filterRuns
    (!·.is run.id run.generation) fun _ => rfl
  rw [Session.removeRun, Session.removeRun]
  split
  · exact remaining.passLock run.id
  · exact remaining

theorem cancelArmed (twins : Twins unseen cached plain) (id : DocumentId) :
    (plain.cancelArmed id).1 = (cached.cancelArmed id).1 ∧
      Twins unseen (cached.cancelArmed id).2 (plain.cancelArmed id).2 := by
  rw [Session.cancelArmed, Session.cancelArmed, twins.registry]
  split
  case h_1 => exact ⟨rfl, twins⟩
  case h_2 generation armed =>
    have disarmed := twins.modifyEntry id fun entry => { entry with armed := none }
    dsimp only
    rw [twins.findRun?]
    cases cached.findRun? id generation with
    | none => exact ⟨rfl, disarmed⟩
    | some run =>
        refine ⟨rfl, ?_⟩
        have removed := disarmed.removeRun run
        rw [← removeRun_uncached (plain.modifyEntry id _)] at removed
        exact removed

/-! ### Registered documents -/

/-- What keeps sessions twins keeps them so on one document after the other. -/
theorem foldl {operation : Session → DocumentId → Session}
    (keeps : ∀ {cached plain}, Twins unseen cached plain → ∀ id,
      Twins unseen (operation cached id) (operation plain id))
    (twins : Twins unseen cached plain) (ids : List DocumentId) :
    Twins unseen (ids.foldl operation cached) (ids.foldl operation plain) := by
  induction ids generalizing cached plain with
  | nil => exact twins
  | cons id later induction => exact induction (keeps twins id)

theorem release (twins : Twins unseen cached plain) (id : DocumentId) :
    Twins unseen (cached.release id) (plain.release id) := by
  have cancelled := (twins.cancelArmed id).2
  rw [Session.release, Session.release, twins.registry]
  split
  · apply Twins.count _ _ rfl
    exact { cancelled with registry := by rw [cancelled.registry] }
  · exact twins

theorem sendNotice (twins : Twins unseen cached plain) (id : DocumentId) :
    Twins unseen (cached.sendNotice id) (plain.sendNotice id) := by
  -- Runs in line have yet to compute, so they are the same in both sessions.
  have queued :
      (plain.runs.filter (·.phase.isQueued)) =
        cached.runs.filter (·.phase.isQueued) := by
    rw [twins.runs, List.filter_map]
    have same : (fun run : Run => run.phase.isQueued) ∘ Run.uncached =
        (·.phase.isQueued) := by
      funext run
      exact Phase.uncached_isQueued run.phase
    rw [same, List.map_congr_left fun run member =>
      Run.uncached_of_isQueued (List.mem_filter.mp member).2]
    exact List.map_id' _
  exact { twins with
    notices := by simp [Session.sendNotice, twins.notices, queued]
    ahead := fun notice member run inLine => by
      rcases List.mem_append.mp member with earlier | last
      · exact twins.ahead notice earlier run inLine
      · cases List.mem_singleton.mp last
        exact (List.mem_filter.mp inLine).2 }

theorem close (twins : Twins unseen cached plain) :
    Twins unseen cached.close plain.close := by
  have cancelled := foldl (fun twins id => (twins.cancelArmed id).2) twins
    cached.registry.ids
  rw [Session.close, Session.close, twins.registry]
  exact { cancelled with
    dropped := rfl
    registry := by rw [cancelled.registry] }

theorem beginCall (twins : Twins unseen cached plain) :
    Twins unseen cached.beginCall plain.beginCall :=
  { twins with calls := by simp [Session.beginCall, twins.calls] }

theorem endCall (twins : Twins unseen cached plain) :
    Twins unseen cached.endCall plain.endCall := by
  have ended : Twins unseen { cached with calls := cached.calls - 1 }
      { plain with calls := plain.calls - 1 } :=
    { twins with calls := by rw [twins.calls] }
  refine ite ?_ ended.close ended
  rw [twins.calls, twins.held, twins.dropped]

theorem giveUp (twins : Twins unseen cached plain) :
    Twins unseen cached.giveUp plain.giveUp := by
  have released : Twins unseen { cached with held := false }
      { plain with held := false } :=
    { twins with held := rfl }
  refine ite ?_ released.close released
  rw [twins.calls, twins.dropped]

/-! ### How runs go on -/

theorem advanceState? (twins : Twins unseen cached plain) (run : Run)
    (before after : DocumentState) :
    Option.Rel (Twins unseen) (cached.advanceState? run before after)
      (plain.advanceState? run before after) := by
  rw [Session.advanceState?, Session.advanceState?, twins.registry]
  cases cached.registry.find? run.id with
  | none => exact .none
  | some entry =>
      dsimp only
      split
      · exact .some (twins.modifyEntry run.id _)
      · exact .none

/-- A run that may be overtaken moves its document on or leaves it alone. -/
theorem advanceState?_getD (twins : Twins unseen cached plain) (run : Run)
    (before after : DocumentState) :
    Twins unseen ((cached.advanceState? run before after).getD cached)
      ((plain.advanceState? run before after).getD plain) := by
  have advance := twins.advanceState? run before after
  generalize cached.advanceState? run before after = left,
    plain.advanceState? run before after = right at advance
  cases advance with
  | none => exact twins
  | some advanced => exact advanced

theorem reply (twins : Twins unseen cached plain) (origin : Origin)
    (id : DocumentId) (result : Answer) :
    Twins unseen (cached.reply origin id result) (plain.reply origin id result) := by
  match origin with
  | .timer => exact twins
  | .call true => exact endCall { twins with answer := fun _ => rfl }
  | .call false => exact (twins.note rfl).endCall

theorem finish (twins : Twins unseen cached plain) (run : Run)
    (result : Answer) :
    Twins unseen (cached.finish run result) (plain.finish run result) :=
  (twins.removeRun run).reply run.origin run.id result

theorem closeDropped (twins : Twins unseen cached plain) (run : Run) :
    Twins unseen (cached.closeDropped run) (plain.closeDropped run) := by
  have discarded := twins.count .discarded rfl
  refine ite ?_ ((count ?_ _ rfl).note rfl) discarded
  · rw [discarded.registry]
  · exact { discarded with registry := by rw [discarded.registry] }

theorem finishStale (twins : Twins unseen cached plain) (run : Run) :
    Twins unseen (cached.finishStale run) (plain.finishStale run) :=
  (twins.count _ rfl).finish run _

theorem finishDropped (twins : Twins unseen cached plain) (run : Run) :
    Twins unseen (cached.finishDropped run) (plain.finishDropped run) :=
  (twins.closeDropped run).finish run _

theorem finishOversized (twins : Twins unseen cached plain) (run : Run)
    (chars : Nat) :
    Twins unseen (cached.finishOversized run chars)
      (plain.finishOversized run chars) :=
  (((twins.advanceState?_getD run _ _).count _ rfl).note rfl).finish run _

theorem finishFailed (twins : Twins unseen cached plain) (run : Run)
    (reason : String) :
    Twins unseen (cached.finishFailed run reason) (plain.finishFailed run reason) :=
  (((twins.advanceState?_getD run _ _).count _ rfl).note rfl).finish run _

theorem takeSnapshot (twins : Twins unseen cached plain) (run : Run) :
    Twins unseen (cached.takeSnapshot run) (plain.takeSnapshot run) := by
  have returned := twins.modifySource run.source Source.endReading
  rw [Session.takeSnapshot, Session.takeSnapshot, twins.sources]
  exact ite .rfl (returned.finishOversized run _) (returned.enterPhase run _ rfl)

theorem readSource (twins : Twins unseen cached plain) (run : Run)
    (frames : List Frame) :
    Twins unseen (cached.readSource run frames) (plain.readSource run frames) := by
  rw [Session.readSource, Session.readSource, twins.sources]
  split
  case h_1 => exact (twins.finishDropped run).answering fun _ => rfl
  case h_2 document found =>
      have begun := (twins.modifySource run.source fun _ =>
        document.beginSnapshot.2).enterPhase run .reading rfl
      exact ite .rfl ((begun.takeSnapshot _).answering fun _ => rfl)
        (begun.answering fun _ => rfl)

theorem beginWork (twins : Twins unseen cached plain) (run : Run)
    (frames : List Frame) :
    Twins unseen (cached.beginWork run frames) (plain.beginWork run frames) := by
  rw [Session.beginWork, Session.beginWork]
  have advance := twins.advanceState? run .pending .computing
  generalize cached.advanceState? run .pending .computing = left,
    plain.advanceState? run .pending .computing = right at advance
  cases advance with
  | none => exact (twins.finishStale run).answering fun _ => rfl
  | some advanced =>
      refine ite ?_ (advanced.readSource run frames)
        ((advanced.finishDropped run).answering fun _ => rfl)
      rw [advanced.isAlive]

theorem requestLock (twins : Twins unseen cached plain) (run : Run)
    (frames : List Frame) :
    Twins unseen (cached.requestLock run frames)
      (plain.requestLock run frames) := by
  refine ite ?_ ((twins.enterPhase run _ rfl).answering fun _ => rfl)
    (twins.beginWork run frames)
  rw [twins.isLocked]

/-- The cache answers what the session without one computes. -/
theorem highlightText (twins : Twins unseen cached plain) (text : Text)
    (config : HighlightConfig) :
    ∃ lookup after, lookup ≠ .uncached ∧
      cached.highlightText text config =
        ((Highlights.compute text config, lookup), after) ∧
      Twins unseen after plain := by
  obtain ⟨cache, here, sound⟩ := twins.sound
  obtain ⟨computed, soundAfter⟩ := Cache.getOrCompute_sound sound cached.clock text config
  rw [Session.highlightText, here]
  dsimp only
  rw [computed]
  refine ⟨_, _, ?_, rfl, { twins with sound := ⟨_, rfl, soundAfter⟩ }⟩
  split <;> nofun

theorem complete (twins : Twins unseen cached plain) (run : Run) (text : Text) :
    Twins unseen (cached.complete run text) (plain.complete run text) := by
  obtain ⟨lookup, after, consulted, looked, twinsAfter⟩ :=
    twins.highlightText text run.config.highlight
  have uncached : plain.highlightText text run.config.highlight =
      ((Highlights.compute text run.config.highlight, .uncached), plain) := by
    rw [Session.highlightText, twins.without]
  have parted := (twinsAfter.filterRuns
    (!·.is run.id run.generation) fun _ => rfl).passLock run.id
  rw [Session.complete, Session.complete, looked, uncached]
  apply parted.enterPhase
  cases lookup with
  | uncached => exact absurd rfl consulted
  | hit | miss => rfl

theorem breakOff (twins : Twins unseen cached plain) (run : Run)
    (reason : String) :
    Twins unseen (cached.breakOff run reason) (plain.breakOff run reason) :=
  ((twins.filterRuns (!·.is run.id run.generation)
    fun _ => rfl).passLock run.id).enterPhase run _ rfl

/-- A lookup is counted where the session without a cache counts a
computation. -/
theorem countLookup (twins : Twins unseen cached plain) {lookup : Lookup}
    (consulted : lookup ≠ .uncached) (first second : Nat) :
    Twins unseen (cached.countLookup lookup first)
      (plain.countLookup .uncached second) := by
  cases lookup with
  | uncached => exact absurd rfl consulted
  | hit => exact { twins with metrics := twins.metrics.hit second }
  | miss => exact { twins with metrics := twins.metrics.miss first second }

theorem conclude (twins : Twins unseen cached plain) (run : Run) (text : Text)
    (highlights : Highlights) {lookup : Lookup} (consulted : lookup ≠ .uncached)
    (first second : Nat) :
    Twins unseen (cached.conclude run text highlights lookup first)
      (plain.conclude run text highlights .uncached second) := by
  have counted := twins.countLookup consulted first second
  refine ite ?_ ?_ (counted.finishDropped run)
  · rw [counted.isAlive]
  · have advance := counted.advanceState? run .computing .idle
    generalize (cached.countLookup lookup first).advanceState? run .computing .idle =
        left,
      (plain.countLookup .uncached second).advanceState? run .computing .idle = right
      at advance
    cases advance with
    | none => exact counted.finishStale run
    | some advanced => exact ((advanced.count _ rfl).note rfl).finish run _

end Twins

end Session

end LogTint
