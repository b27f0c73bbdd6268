import LogTint.Proofs.OwnRuns
import LogTint.Proofs.Runs
import LogTint.Schedule.Performing

/-!
# Sessions that differ in an order

Documents can be edited in different orders with the same result for each of them.
The sessions that come of it differ in how the runs of different documents stand
among each other, in the order of the news that the host is owed, and in the order
of what was answered last.  The operations of the scheduler do not bring these
differences out.
-/

namespace LogTint

/-- The same answer, or the same outcomes in another order. -/
inductive Answer.Reordered : Answer → Answer → Prop where
  | same (answer : Answer) : Reordered answer answer
  | outcomes {first second : List (DocumentId × EditOutcome)} (perm : second.Perm first) :
      Reordered (.outcomes first) (.outcomes second)

namespace Session

/-- Sessions that agree on the runs of every document, on the documents that the host
is going to be told of, and on everything else that is not the latest answer. -/
structure Reordered (first second : Session) : Prop where
  runs : ∀ id, second.runsOf id = first.runsOf id
  notices : (second.notices.map (·.id)).Perm (first.notices.map (·.id))
  answer : first.answer.Reordered second.answer
  rest : second =
    { first with
      runs := second.runs
      notices := second.notices
      answer := second.answer }

namespace Reordered

variable {first second : Session} {id : DocumentId}

theorem refl (session : Session) : Reordered session session :=
  ⟨fun _ => rfl, .refl _, .same _, rfl⟩

/-! ### What is the same -/

theorem clock (same : Reordered first second) : second.clock = first.clock := by
  rw [same.rest]

theorem sources (same : Reordered first second) : second.sources = first.sources := by
  rw [same.rest]

theorem settings (same : Reordered first second) : second.settings = first.settings := by
  rw [same.rest]

theorem registry (same : Reordered first second) : second.registry = first.registry := by
  rw [same.rest]

theorem nextId (same : Reordered first second) : second.nextId = first.nextId := by
  rw [same.rest]

theorem cache (same : Reordered first second) : second.cache = first.cache := by
  rw [same.rest]

theorem held (same : Reordered first second) : second.held = first.held := by
  rw [same.rest]

theorem calls (same : Reordered first second) : second.calls = first.calls := by
  rw [same.rest]

theorem dropped (same : Reordered first second) : second.dropped = first.dropped := by
  rw [same.rest]

theorem control (same : Reordered first second) : second.control = first.control := by
  rw [same.rest]

theorem log (same : Reordered first second) : second.log = first.log := by
  rw [same.rest]

theorem isAlive (same : Reordered first second) (source : SourceId) :
    second.isAlive source = first.isAlive source := by
  rw [Session.isAlive, same.sources, Session.isAlive]

theorem findRun? (same : Reordered first second) (id : DocumentId) (generation : Nat) :
    second.findRun? id generation = first.findRun? id generation := by
  rw [findRun?_eq, findRun?_eq, same.runs]

theorem isLocked (same : Reordered first second) (id : DocumentId) :
    second.isLocked id = first.isLocked id := by
  rw [isLocked_eq, isLocked_eq, same.runs]

/-! ### How the differences are kept small -/

/-- What has nothing to do with runs, notices and answers makes no difference. -/
theorem map (same : Reordered first second) (change : Session → Session)
    (blind : ∀ session runs notices answer,
      change { session with runs, notices, answer } =
        { change session with runs, notices, answer }) :
    Reordered (change first) (change second) := by
  have kept := blind first first.runs first.notices first.answer
  have changed := blind first second.runs second.notices second.answer
  rw [← same.rest] at changed
  rw [kept, changed]
  exact ⟨same.runs, same.notices, same.answer, rfl⟩

/-- The runs may be changed, document by document. -/
theorem of_runs {final finalTwin : Session} (same : Reordered first second)
    (frame : final = { first with runs := final.runs })
    (frameTwin : finalTwin = { second with runs := finalTwin.runs })
    (runs : ∀ id, finalTwin.runsOf id = final.runsOf id) : Reordered final finalTwin := by
  refine ⟨runs, ?_, ?_, ?_⟩
  · rw [frame, frameTwin]
    exact same.notices
  · rw [frame, frameTwin]
    exact same.answer
  · have rest := congrArg (fun session => { session with runs := finalTwin.runs }) same.rest
    rw [← frameTwin] at rest
    rw [frame, rest]

/-- Sessions that are changed under the same condition differ in an order only if they
do so in either case. -/
theorem ite {firstThen secondThen firstElse secondElse : Session} {left right : Prop}
    [Decidable left] [Decidable right] (agree : right ↔ left)
    (holding : Reordered firstThen secondThen) (failing : Reordered firstElse secondElse) :
    Reordered (if left then firstThen else firstElse)
      (if right then secondThen else secondElse) := by
  by_cases holds : left
  · rwa [if_pos holds, if_pos (agree.mpr holds)]
  · rwa [if_neg holds, if_neg (mt agree.mp holds)]

theorem foldl {operation : Session → DocumentId → Session}
    (keeps : ∀ {first second}, Reordered first second → ∀ id,
      Reordered (operation first id) (operation second id))
    (same : Reordered first second) (ids : List DocumentId) :
    Reordered (ids.foldl operation first) (ids.foldl operation second) := by
  induction ids generalizing first second with
  | nil => exact same
  | cons id later induction => exact induction (keeps same id)

/-! ### Small changes -/

theorem count (same : Reordered first second) (occurrence : Occurrence) :
    Reordered (first.count occurrence) (second.count occurrence) :=
  same.map (Session.count · occurrence) fun _ _ _ _ => rfl

theorem note (same : Reordered first second) (event : Event) :
    Reordered (first.note event) (second.note event) :=
  same.map (Session.note · event) fun _ _ _ _ => rfl

theorem answering (same : Reordered first second) (answer : Answer) (frames : List Frame) :
    Reordered (first.answering answer frames) (second.answering answer frames) :=
  same.map (Session.answering · answer frames) fun _ _ _ _ => rfl

theorem modifySource (same : Reordered first second) (source : SourceId)
    (change : Source → Source) :
    Reordered (first.modifySource source change) (second.modifySource source change) :=
  same.map (Session.modifySource · source change) fun _ _ _ _ => rfl

theorem modifyEntry (same : Reordered first second) (id : DocumentId)
    (change : Entry → Entry) :
    Reordered (first.modifyEntry id change) (second.modifyEntry id change) :=
  same.map (Session.modifyEntry · id change) fun _ _ _ _ => rfl

theorem withRegistry (same : Reordered first second) (change : Registry → Registry) :
    Reordered { first with registry := change first.registry }
      { second with registry := change second.registry } :=
  same.map (fun session => { session with registry := change session.registry })
    fun _ _ _ _ => rfl

theorem withAnswer (same : Reordered first second) (answer : Answer) :
    Reordered { first with answer } { second with answer } :=
  ⟨same.runs, same.notices, .same _, by rw [same.rest]⟩

/-! ### Runs -/

theorem withoutRun (same : Reordered first second) (run : Run) :
    Reordered { first with runs := first.runs.filter (!·.is run.id run.generation) }
      { second with runs := second.runs.filter (!·.is run.id run.generation) } :=
  same.of_runs rfl rfl
    ((first.withoutRun_actsOn run).agree (second.withoutRun_actsOn run) same.runs)

theorem addRun (same : Reordered first second) (run : Run) :
    Reordered { first with runs := first.runs ++ [run] }
      { second with runs := second.runs ++ [run] } :=
  same.of_runs rfl rfl ((first.addRun_actsOn run).agree (second.addRun_actsOn run) same.runs)

theorem enterPhase (same : Reordered first second) (run : Run) (phase : Phase) :
    Reordered (first.enterPhase run phase) (second.enterPhase run phase) :=
  (same.withoutRun run).addRun { run with phase }

theorem passLock (same : Reordered first second) (id : DocumentId) :
    Reordered (first.passLock id) (second.passLock id) :=
  same.of_runs (passLock_eq first id) (passLock_eq second id)
    ((first.passLock_actsOn id).agree (second.passLock_actsOn id) same.runs)

theorem removeRun (same : Reordered first second) (run : Run) :
    Reordered (first.removeRun run) (second.removeRun run) :=
  same.of_runs (removeRun_eq first run) (removeRun_eq second run)
    ((first.removeRun_actsOn run).agree (second.removeRun_actsOn run) same.runs)

theorem cancelArmed (same : Reordered first second) (id : DocumentId) :
    (second.cancelArmed id).1 = (first.cancelArmed id).1 ∧
      Reordered (first.cancelArmed id).2 (second.cancelArmed id).2 := by
  unfold Session.cancelArmed
  rw [same.registry]
  cases (first.registry.find? id).bind (·.armed) with
  | none => exact ⟨rfl, same⟩
  | some generation =>
      have disarmed := same.modifyEntry id fun entry => { entry with armed := none }
      dsimp only
      rw [same.findRun?]
      cases first.findRun? id generation with
      | none => exact ⟨rfl, disarmed⟩
      | some run => exact ⟨rfl, disarmed.removeRun run⟩

/-! ### Registered documents -/

theorem release (same : Reordered first second) (id : DocumentId) :
    Reordered (first.release id) (second.release id) := by
  refine ite (by rw [same.registry]) ?_ same
  exact (withRegistry (same.cancelArmed id).2 (·.erase id)).count .documentClosed

theorem sendNotice (same : Reordered first second) (id : DocumentId) :
    Reordered (first.sendNotice id) (second.sendNotice id) := by
  refine ⟨same.runs, ?_, same.answer, ?_⟩
  · rw [Session.sendNotice, Session.sendNotice, List.map_append, List.map_append]
    exact same.notices.append_right _
  · rw [Session.sendNotice, Session.sendNotice]
    conv_lhs => rw [same.rest]

theorem close (same : Reordered first second) : Reordered first.close second.close := by
  have cancelled := foldl (fun same id => (cancelArmed same id).2) same first.registry.ids
  rw [Session.close, Session.close, same.registry]
  exact cancelled.map
    (fun session =>
      { session with
        dropped := true
        registry := session.registry.modifyAll fun entry => { entry with state := .closed } })
    fun _ _ _ _ => rfl

theorem beginCall (same : Reordered first second) :
    Reordered first.beginCall second.beginCall :=
  same.map Session.beginCall fun _ _ _ _ => rfl

theorem endCall (same : Reordered first second) :
    Reordered first.endCall second.endCall := by
  have ended := same.map (fun session => { session with calls := session.calls - 1 })
    fun _ _ _ _ => rfl
  refine ite ?_ ended.close ended
  rw [same.calls, same.held, same.dropped]

theorem giveUp (same : Reordered first second) : Reordered first.giveUp second.giveUp := by
  have released := same.map (fun session => { session with held := false })
    fun _ _ _ _ => rfl
  refine ite ?_ released.close released
  rw [same.calls, same.dropped]

/-! ### How runs go on -/

theorem advanceState? (same : Reordered first second) (run : Run)
    (before after : DocumentState) :
    Option.Rel Reordered (first.advanceState? run before after)
      (second.advanceState? run before after) := by
  rw [Session.advanceState?, Session.advanceState?, same.registry]
  cases first.registry.find? run.id with
  | none => exact .none
  | some entry =>
      dsimp only
      split
      · exact .some (same.modifyEntry run.id _)
      · exact .none

theorem advanceState?_getD (same : Reordered first second) (run : Run)
    (before after : DocumentState) :
    Reordered ((first.advanceState? run before after).getD first)
      ((second.advanceState? run before after).getD second) := by
  have advance := same.advanceState? run before after
  generalize first.advanceState? run before after = left,
    second.advanceState? run before after = right at advance
  cases advance with
  | none => exact same
  | some advanced => exact advanced

theorem reply (same : Reordered first second) (origin : Origin) (id : DocumentId)
    (result : Answer) :
    Reordered (first.reply origin id result) (second.reply origin id result) := by
  match origin with
  | .timer => exact same
  | .call true => exact (same.withAnswer result).endCall
  | .call false => exact (same.note _).endCall

theorem finish (same : Reordered first second) (run : Run) (result : Answer) :
    Reordered (first.finish run result) (second.finish run result) :=
  (same.removeRun run).reply run.origin run.id result

theorem closeDropped (same : Reordered first second) (run : Run) :
    Reordered (first.closeDropped run) (second.closeDropped run) := by
  have discarded := same.count .discarded
  refine ite (by rw [discarded.registry]) ?_ discarded
  exact ((discarded.withRegistry (·.erase run.id)).count _).note _

theorem finishStale (same : Reordered first second) (run : Run) :
    Reordered (first.finishStale run) (second.finishStale run) :=
  (same.count _).finish run _

theorem finishDropped (same : Reordered first second) (run : Run) :
    Reordered (first.finishDropped run) (second.finishDropped run) :=
  (same.closeDropped run).finish run _

theorem finishOversized (same : Reordered first second) (run : Run) (chars : Nat) :
    Reordered (first.finishOversized run chars) (second.finishOversized run chars) :=
  (((same.advanceState?_getD run _ _).count _).note _).finish run _

theorem finishFailed (same : Reordered first second) (run : Run) (reason : String) :
    Reordered (first.finishFailed run reason) (second.finishFailed run reason) :=
  (((same.advanceState?_getD run _ _).count _).note _).finish run _

theorem takeSnapshot (same : Reordered first second) (run : Run) :
    Reordered (first.takeSnapshot run) (second.takeSnapshot run) := by
  have returned := same.modifySource run.source Source.endReading
  rw [Session.takeSnapshot, Session.takeSnapshot, same.sources]
  exact ite .rfl (returned.finishOversized run _) (returned.enterPhase run _)

theorem readSource (same : Reordered first second) (run : Run) (frames : List Frame) :
    Reordered (first.readSource run frames) (second.readSource run frames) := by
  rw [Session.readSource, Session.readSource, same.sources]
  split
  case h_1 => exact (same.finishDropped run).answering _ _
  case h_2 document found =>
      have begun := (same.modifySource run.source fun _ =>
        document.beginSnapshot.2).enterPhase run .reading
      exact ite .rfl ((begun.takeSnapshot _).answering _ _) (begun.answering _ _)

theorem beginWork (same : Reordered first second) (run : Run) (frames : List Frame) :
    Reordered (first.beginWork run frames) (second.beginWork run frames) := by
  rw [Session.beginWork, Session.beginWork]
  have advance := same.advanceState? run .pending .computing
  generalize first.advanceState? run .pending .computing = left,
    second.advanceState? run .pending .computing = right at advance
  cases advance with
  | none => exact (same.finishStale run).answering _ _
  | some advanced =>
      refine ite ?_ (advanced.readSource run frames)
        ((advanced.finishDropped run).answering _ _)
      rw [advanced.isAlive]

theorem requestLock (same : Reordered first second) (run : Run) (frames : List Frame) :
    Reordered (first.requestLock run frames) (second.requestLock run frames) := by
  refine ite ?_ ((same.enterPhase run _).answering _ _) (same.beginWork run frames)
  rw [same.isLocked]

theorem highlightText (same : Reordered first second) (text : Text)
    (config : HighlightConfig) :
    (second.highlightText text config).1 = (first.highlightText text config).1 ∧
      Reordered (first.highlightText text config).2 (second.highlightText text config).2 := by
  unfold Session.highlightText
  rw [same.cache]
  split
  case h_1 => exact ⟨rfl, same⟩
  case h_2 cache present =>
      have looked : cache.getOrCompute second.clock text config =
          cache.getOrCompute first.clock text config := by rw [same.clock]
      rw [looked]
      obtain ⟨⟨highlights, hit⟩, after⟩ := cache.getOrCompute first.clock text config
      exact ⟨rfl, same.map (fun session => { session with cache := some after })
        fun _ _ _ _ => rfl⟩

theorem complete (same : Reordered first second) (run : Run) (text : Text) :
    Reordered (first.complete run text) (second.complete run text) := by
  have both := same.highlightText text run.config.highlight
  unfold Session.complete
  generalize first.highlightText text run.config.highlight = left,
    second.highlightText text run.config.highlight = right at both
  obtain ⟨looked, after⟩ := left
  obtain ⟨lookedTwin, afterTwin⟩ := right
  obtain ⟨rfl, sameAfter⟩ := both
  exact ((sameAfter.withoutRun run).passLock run.id).enterPhase _ _

theorem breakOff (same : Reordered first second) (run : Run) (reason : String) :
    Reordered (first.breakOff run reason) (second.breakOff run reason) :=
  ((same.withoutRun run).passLock run.id).enterPhase run _

theorem countLookup (same : Reordered first second) (lookup : Lookup)
    (nanoseconds : Nat) :
    Reordered (first.countLookup lookup nanoseconds)
      (second.countLookup lookup nanoseconds) := by
  cases lookup with
  | uncached | hit => exact same.count _
  | miss => exact (same.count _).count _

theorem conclude (same : Reordered first second) (run : Run) (text : Text)
    (highlights : Highlights) (lookup : Lookup) (nanoseconds : Nat) :
    Reordered (first.conclude run text highlights lookup nanoseconds)
      (second.conclude run text highlights lookup nanoseconds) := by
  have counted := same.countLookup lookup nanoseconds
  refine ite (by rw [counted.isAlive]) ?_ (counted.finishDropped run)
  have advance := counted.advanceState? run .computing .idle
  generalize (first.countLookup lookup nanoseconds).advanceState? run .computing .idle =
      left,
    (second.countLookup lookup nanoseconds).advanceState? run .computing .idle = right
    at advance
  cases advance with
  | none => exact counted.finishStale run
  | some advanced => exact ((advanced.count _).note _).finish run _

theorem poll (same : Reordered first second) (run : Run) (nanoseconds : Nat) :
    Reordered (first.poll run nanoseconds) (second.poll run nanoseconds) := by
  unfold Session.poll
  split
  · exact same.requestLock run []
  · exact same.beginWork run []
  · exact same.conclude run _ _ _ _
  · exact same.finishFailed run _
  · exact same

/-! ### Edits and calls -/

theorem supersede (same : Reordered first second) (id : DocumentId) :
    Reordered (first.supersede id) (second.supersede id) := by
  have bumped := same.modifyEntry id fun entry =>
    { entry with generation := entry.generation + 1 }
  obtain ⟨cancelled, disarmed⟩ := bumped.cancelArmed id
  exact ite (Bool.coe_iff_coe.mpr cancelled) (disarmed.count _) disarmed

theorem setState (same : Reordered first second) (id : DocumentId) (state : DocumentState) :
    Reordered (first.setState id state) (second.setState id state) :=
  same.modifyEntry id _

theorem arm (same : Reordered first second) (id : DocumentId) (source : SourceId)
    (generation : Nat) (config : WorkerConfig) :
    Reordered (first.arm id source generation config)
      (second.arm id source generation config) := by
  have armed := same.modifyEntry id fun entry => { entry with armed := some generation }
  let new (clock : Nat) : Run :=
    ⟨id, generation, source, config, .timer, .sleeping (clock + config.debounce)⟩
  have sameRun : new second.clock = new first.clock := by rw [same.clock]
  refine armed.of_runs rfl rfl ((addRun_actsOn _ (new first.clock)).agree ?_ armed.runs)
  rw [← sameRun]
  exact addRun_actsOn _ (new second.clock)

theorem applyEdit (same : Reordered first second) (id : DocumentId) (chars : Nat) :
    (second.applyEdit id chars).1 = (first.applyEdit id chars).1 ∧
      Reordered (first.applyEdit id chars).2 (second.applyEdit id chars).2 := by
  have superseded := same.supersede id
  rw [Session.applyEdit, Session.applyEdit, same.registry, same.settings]
  split
  case h_1 => exact ⟨rfl, same⟩
  case h_2 entry found =>
      dsimp only
      split
      · exact ⟨rfl, (superseded.setState id _).count _⟩
      · exact ⟨rfl, (superseded.setState id _).arm id _ _ _⟩

theorem finishEdit (same : Reordered first second) (id : DocumentId) (source : SourceId)
    (frames : List Frame) :
    Reordered (first.finishEdit id source frames) (second.finishEdit id source frames) := by
  rw [Session.finishEdit, Session.finishEdit, same.sources]
  obtain ⟨answer, edited⟩ := (same.modifySource source Source.endReading).applyEdit id _
  dsimp only
  rw [answer]
  exact edited.answering _ _

theorem beginEdit (same : Reordered first second) (id : DocumentId) (frames : List Frame) :
    Reordered (first.beginEdit id frames) (second.beginEdit id frames) := by
  have called := same.beginCall
  rw [Session.beginEdit, Session.beginEdit]
  dsimp only
  rw [called.registry]
  split
  case h_1 => exact called.answering _ _
  case h_2 entry found =>
      have counted := called.count .edit
      rw [counted.sources]
      split
      case h_1 => exact ((counted.release id).sendNotice id).answering _ _
      case h_2 document alive =>
          have begun := counted.modifySource entry.source fun _ => document.beginLength.2
          exact ite .rfl (begun.finishEdit id entry.source _) (begun.answering _ _)

theorem rearmNext (same : Reordered first second) (rest : List DocumentId)
    (outcomes : List (DocumentId × EditOutcome)) (frames : List Frame) :
    Reordered (first.rearmNext rest outcomes frames)
      (second.rearmNext rest outcomes frames) := by
  cases rest with
  | nil => exact same.answering _ _
  | cons id later => exact same.beginEdit id _

theorem reconfigure (same : Reordered first second) (settings : Settings)
    (ids : List DocumentId) (frames : List Frame) :
    Reordered (first.reconfigure settings ids frames)
      (second.reconfigure settings ids frames) := by
  have called := same.beginCall
  rw [Session.reconfigure, Session.reconfigure]
  split
  case h_1 => exact called.answering _ _
  case h_2 =>
      apply rearmNext
      exact called.map (fun session => { session with settings }) fun _ _ _ _ => rfl

theorem beginNow (same : Reordered first second) (awaited : Bool) (id : DocumentId)
    (frames : List Frame) :
    Reordered (first.beginNow awaited id frames) (second.beginNow awaited id frames) := by
  have called := same.beginCall
  rw [Session.beginNow, Session.beginNow]
  dsimp only
  rw [called.registry, called.settings]
  split
  case h_1 => exact (called.reply _ id _).answering _ _
  case h_2 entry found =>
      exact (((called.supersede id).setState id .pending).addRun _).requestLock _ frames

end Reordered

end Session

end LogTint
