import LogTint.Proofs.Twins
import LogTint.Proofs.Runs
import LogTint.Schedule.Settle
import Mathlib.Data.List.Find

/-!
# Twin sessions take the same moves

Whatever is possible for a session with a cache is possible for its twin, and
leads to twins again unless the host asks for the cache itself.  It does not matter
how long computations take in either.
Both therefore settle in the same way, and time passes alike for them.
-/

namespace LogTint

namespace Move

/-- Whether a move asks for the cache. -/
def readsCache : Move → Bool
  | .act action => action.readsCache
  | _ => false

/-- The move without the time that a computation has taken. -/
def untimed : Move → Move
  | .poll id generation _ => .poll id generation 0
  | move => move

/-- Moves that differ in the time that a computation has taken are moves of the same
run. -/
theorem eq_or_poll_of_untimed {left right : Move} (same : right.untimed = left.untimed) :
    right = left ∨ ∃ id generation first second,
      left = .poll id generation first ∧ right = .poll id generation second := by
  cases left <;> cases right <;> simp_all [untimed]

end Move

@[simp] theorem Phase.uncached_workload (phase : Phase) :
    phase.uncached.workload = phase.workload := by
  cases phase <;> rfl

namespace Session

/-- Nothing that goes on by itself asks for the cache. -/
theorem readsCache_of_nextMove? {session : Session} {move : Move}
    (next : session.nextMove? = some move) : move.readsCache = false := by
  have ofRun : ∀ {found : Option Run} {ofRun : Run → Move},
      (∀ run, (ofRun run).readsCache = false) →
        found.map ofRun = some move → move.readsCache = false := by
    intro found ofRun blind made
    obtain ⟨run, _, rfl⟩ := Option.map_eq_some_iff.mp made
    exact blind run
  rw [nextMove?] at next
  split at next
  · cases next
    rfl
  · simp only [Option.or_eq_some_iff] at next
    rcases next with awaited | ⟨_, turn | ⟨_, ready | ⟨_, computing⟩⟩⟩
    · exact ofRun (fun _ => rfl) awaited
    · rw [nextTurn?] at turn
      split at turn
      · cases turn
        rfl
      · exact ofRun (fun _ => rfl) turn
    · exact ofRun (fun _ => rfl) ready
    · exact ofRun (fun _ => rfl) computing

@[simp] theorem conclude_uncached (session : Session) (run : Run) (text : Text)
    (highlights : Highlights) (lookup : Lookup) (nanoseconds : Nat) :
    session.conclude run.uncached text highlights lookup nanoseconds =
      session.conclude run text highlights lookup nanoseconds := by
  simp only [conclude, finishStale, finishDropped, finish, removeRun_uncached]
  rfl

@[simp] theorem finishFailed_uncached (session : Session) (run : Run)
    (reason : String) :
    session.finishFailed run.uncached reason = session.finishFailed run reason := by
  simp only [finishFailed, finish, removeRun_uncached]
  rfl

/-- What is possible under the same condition leads to related sessions. -/
theorem possible {Related : Session → Session → Prop} {left right : Prop} [Decidable left]
    [Decidable right] (same : right ↔ left) {first second : Option Session}
    (holding : Option.Rel Related first second) :
    Option.Rel Related (if left then first else none) (if right then second else none) := by
  by_cases holds : left
  · rwa [if_pos holds, if_pos (same.mpr holds)]
  · rw [if_neg holds, if_neg (mt same.mp holds)]
    exact .none

namespace Twins

variable {unseen : Bool} {cached plain : Session}

theorem poll (twins : Twins unseen cached plain) {run : Run}
    (member : run ∈ cached.runs) (first second : Nat) :
    Twins unseen (cached.poll run first) (plain.poll run.uncached second) := by
  have uses := twins.usesCache run member
  rw [Session.poll, Session.poll, Run.uncached_phase]
  cases phase : run.phase with
  | due =>
      rw [Run.uncached_of_isQueued (by rw [phase]; rfl)]
      exact twins.requestLock run []
  | granted =>
      rw [Run.uncached_of_isQueued (by rw [phase]; rfl)]
      exact twins.beginWork run []
  | computed text highlights lookup =>
      have consulted : lookup ≠ .uncached := by
        rintro rfl
        rw [phase] at uses
        cases uses
      have concluded := twins.conclude run text highlights consulted first second
      rw [← conclude_uncached plain] at concluded
      exact concluded
  | failed reason =>
      have finished := twins.finishFailed run reason
      rw [← finishFailed_uncached plain] at finished
      exact finished
  | sleeping | waiting | reading | computing => exact twins

/-! ### Edits and calls -/

theorem supersede (twins : Twins unseen cached plain) (id : DocumentId) :
    Twins unseen (cached.supersede id) (plain.supersede id) := by
  have bumped := twins.modifyEntry id fun entry =>
    { entry with generation := entry.generation + 1 }
  obtain ⟨same, disarmed⟩ := bumped.cancelArmed id
  exact ite (Bool.coe_iff_coe.mpr same) (disarmed.count _ rfl) disarmed

theorem setState (twins : Twins unseen cached plain) (id : DocumentId)
    (state : DocumentState) :
    Twins unseen (cached.setState id state) (plain.setState id state) :=
  twins.modifyEntry id _

theorem arm (twins : Twins unseen cached plain) (id : DocumentId)
    (source : SourceId) (generation : Nat) (config : WorkerConfig) :
    Twins unseen (cached.arm id source generation config)
      (plain.arm id source generation config) := by
  have armed := twins.modifyEntry id fun entry =>
    { entry with armed := some generation }
  have added := armed.addRun
    ⟨id, generation, source, config, .timer,
      .sleeping (cached.clock + config.debounce)⟩ rfl
  exact { added with
    runs := by
      rw [Session.arm, Session.arm]
      exact twins.clock ▸ added.runs }

theorem applyEdit (twins : Twins unseen cached plain) (id : DocumentId)
    (chars : Nat) :
    (plain.applyEdit id chars).1 = (cached.applyEdit id chars).1 ∧
      Twins unseen (cached.applyEdit id chars).2 (plain.applyEdit id chars).2 := by
  have superseded := twins.supersede id
  rw [Session.applyEdit, Session.applyEdit, twins.registry, twins.settings]
  split
  case h_1 => exact ⟨rfl, twins⟩
  case h_2 entry found =>
      dsimp only
      split
      · exact ⟨rfl, (superseded.setState id _).count _ rfl⟩
      · exact ⟨rfl, (superseded.setState id _).arm id _ _ _⟩

theorem finishEdit (twins : Twins unseen cached plain) (id : DocumentId)
    (source : SourceId) (frames : List Frame) :
    Twins unseen (cached.finishEdit id source frames)
      (plain.finishEdit id source frames) := by
  rw [Session.finishEdit, Session.finishEdit, twins.sources]
  obtain ⟨same, edited⟩ :=
    (twins.modifySource source Source.endReading).applyEdit id _
  exact edited.answering fun _ => same.symm

theorem beginEdit (twins : Twins unseen cached plain) (id : DocumentId)
    (frames : List Frame) :
    Twins unseen (cached.beginEdit id frames) (plain.beginEdit id frames) := by
  have called := twins.beginCall
  rw [Session.beginEdit, Session.beginEdit]
  dsimp only
  rw [called.registry]
  split
  case h_1 => exact called.answering fun _ => rfl
  case h_2 entry found =>
      have counted := called.count .edit rfl
      rw [counted.sources]
      split
      case h_1 => exact ((counted.release id).sendNotice id).answering fun _ => rfl
      case h_2 document alive =>
          have begun := counted.modifySource entry.source fun _ =>
            document.beginLength.2
          exact ite .rfl (begun.finishEdit id entry.source _)
            (begun.answering fun _ => rfl)

theorem rearmNext (twins : Twins unseen cached plain) (rest : List DocumentId)
    (outcomes : List (DocumentId × EditOutcome)) (frames : List Frame) :
    Twins unseen (cached.rearmNext rest outcomes frames)
      (plain.rearmNext rest outcomes frames) := by
  cases rest with
  | nil => exact twins.answering fun _ => rfl
  | cons id later => exact twins.beginEdit id _

theorem reconfigure (twins : Twins unseen cached plain) (settings : Settings)
    (ids : List DocumentId) (frames : List Frame) :
    Twins unseen (cached.reconfigure settings ids frames)
      (plain.reconfigure settings ids frames) := by
  have called := twins.beginCall
  rw [Session.reconfigure, Session.reconfigure]
  split
  case h_1 => exact called.answering fun _ => rfl
  case h_2 =>
      apply rearmNext
      exact { called with settings := rfl }

theorem beginNow (twins : Twins unseen cached plain) (awaited : Bool)
    (id : DocumentId) (frames : List Frame) :
    Twins unseen (cached.beginNow awaited id frames)
      (plain.beginNow awaited id frames) := by
  have called := twins.beginCall
  rw [Session.beginNow, Session.beginNow]
  dsimp only
  rw [called.registry, called.settings]
  split
  case h_1 => exact (called.reply _ id _).answering fun _ => rfl
  case h_2 entry found =>
      exact (((called.supersede id).setState id .pending).addRun _ rfl).requestLock _ frames

/-! ### Carrying out actions -/

theorem rewriteSource (twins : Twins unseen cached plain) (source : SourceId)
    (change : Buffer → Buffer) :
    (plain.rewriteSource source change).1 = (cached.rewriteSource source change).1 ∧
      Twins unseen (cached.rewriteSource source change).2
        (plain.rewriteSource source change).2 := by
  rw [Session.rewriteSource, Session.rewriteSource, twins.sources]
  split
  case h_1 => exact ⟨rfl, twins⟩
  case h_2 => exact ⟨rfl, twins.modifySource source _⟩

theorem releaseSource (twins : Twins unseen cached plain) (source : SourceId) :
    (plain.releaseSource source).1 = (cached.releaseSource source).1 ∧
      Twins unseen (cached.releaseSource source).2 (plain.releaseSource source).2 := by
  rw [Session.releaseSource, Session.releaseSource, twins.sources]
  split
  case h_1 => exact ⟨rfl, twins⟩
  case h_2 => exact ⟨rfl, twins.modifySource source _⟩

theorem register (twins : Twins unseen cached plain) (source : SourceId) :
    (plain.register source).1 = (cached.register source).1 ∧
      Twins unseen (cached.register source).2 (plain.register source).2 := by
  rw [Session.register, Session.register, twins.sources, twins.nextId]
  split
  case h_1 => exact ⟨rfl, twins⟩
  case h_2 =>
      refine ⟨rfl, count ?_ _ rfl⟩
      exact { twins with
        sources := rfl
        nextId := rfl
        registry := by rw [twins.registry] }

theorem releaseAndTell (twins : Twins unseen cached plain) (id : DocumentId) :
    Twins unseen (cached.releaseAndTell id) (plain.releaseAndTell id) :=
  (twins.release id).note rfl

theorem unregister (twins : Twins unseen cached plain) (id : DocumentId) :
    (plain.unregister id).1 = (cached.unregister id).1 ∧
      Twins unseen (cached.unregister id).2 (plain.unregister id).2 := by
  rw [Session.unregister, Session.unregister, twins.registry]
  split
  · exact ⟨rfl, twins.releaseAndTell id⟩
  · exact ⟨rfl, twins⟩

theorem droppedIds (twins : Twins unseen cached plain) :
    plain.droppedIds = cached.droppedIds := by
  simp only [Session.droppedIds, twins.registry, twins.isAlive]

theorem sweep (twins : Twins unseen cached plain) :
    plain.sweep.1 = cached.sweep.1 ∧ Twins unseen cached.sweep.2 plain.sweep.2 := by
  rw [Session.sweep, Session.sweep, twins.droppedIds]
  exact ⟨rfl, foldl releaseAndTell twins _⟩

theorem shutdown (twins : Twins unseen cached plain) :
    plain.shutdown.1 = cached.shutdown.1 ∧
      Twins unseen cached.shutdown.2 plain.shutdown.2 := by
  rw [Session.shutdown, Session.shutdown, twins.registry]
  refine ⟨rfl, foldl ?_ (foldl release twins _) _⟩
  exact fun twins id => twins.note rfl

theorem performAtOnce? (twins : Twins unseen cached plain) {action : Action}
    (elsewhere : action.readsCache = false) :
    Option.Rel
      (fun left right => right.1 = left.1 ∧ Twins unseen left.2 right.2)
      (cached.performAtOnce? action) (plain.performAtOnce? action) := by
  cases action with
  | replace source text => exact .some (twins.rewriteSource source _)
  | append source text => exact .some (twins.rewriteSource source _)
  | release source => exact .some (twins.releaseSource source)
  | register source => exact .some (twins.register source)
  | unregister id => exact .some (twins.unregister id)
  | sweep => exact .some twins.sweep
  | shutdown => exact .some twins.shutdown
  | info id => exact .some ⟨by rw [twins.registry], twins⟩
  | contains id => exact .some ⟨by rw [twins.registry], twins⟩
  | settings => exact .some ⟨by rw [twins.settings], twins⟩
  | clearCache | describe => cases elsewhere
  | dropScheduler =>
      refine .some ⟨by rw [twins.held], ?_⟩
      exact ite (by rw [twins.held]) twins.giveUp twins
  | edit | startNow | reconfigure => exact .none

/-- An action is carried out alike unless it asks for the cache and its answer
makes a difference. -/
theorem perform (twins : Twins unseen cached plain) (action : Action)
    (frames : List Frame)
    (ignored : action.readsCache = true → Frame.heeded frames = false) :
    Twins unseen (cached.perform action frames) (plain.perform action frames) := by
  refine ite (by rw [twins.held]) (twins.answering fun _ => rfl) ?_
  cases elsewhere : action.readsCache with
  | false =>
      have performed := twins.performAtOnce? elsewhere
      cases action with
      | edit id => exact twins.beginEdit id frames
      | startNow id => exact twins.beginNow false id frames
      | reconfigure settings =>
          rw [twins.registry]
          exact twins.reconfigure settings _ frames
      | _ =>
          dsimp only
          generalize cached.performAtOnce? _ = left, plain.performAtOnce? _ = right
            at performed
          cases performed with
          | none => exact twins.answering fun _ => rfl
          | some both => exact both.2.answering fun _ => both.1.symm
  | true =>
      -- The answers differ, and nobody listens.
      have deaf := ignored elsewhere
      have unheard : ∀ {left right : Answer},
          Frame.heeded frames = true → left = right := by
        intro left right heeded
        rw [deaf] at heeded
        cases heeded
      cases action with
      | clearCache =>
          obtain ⟨cache, here, sound⟩ := twins.sound
          apply answering _ unheard
          exact { twins with
            sound := ⟨cache.clear, by rw [here]; rfl, cache.clear_sound⟩
            without := by rw [twins.without]; rfl }
      | describe => exact twins.answering unheard
      | _ => cases elsewhere

theorem resume (twins : Twins unseen cached plain) {left right : Answer}
    (frame : Frame) (frames : List Frame)
    (same : Frame.heeded (frame :: frames) = true → left = right) :
    Twins unseen (cached.resume left frame frames)
      (plain.resume right frame frames) := by
  cases frame with
  | host =>
      cases same rfl
      apply answering _ fun _ => rfl
      exact { twins with answer := fun _ => rfl }
  | call => exact twins.endCall.answering same
  | acted action =>
      refine answering (twins.note ?_) fun heeded => same ?_
      · cases elsewhere : action.readsCache with
        | false =>
            cases same (by simp [Frame.heeded, elsewhere])
            rfl
        | true => simp [Event.veiled, elsewhere]
      · simp [Frame.heeded, heeded]
  | actions rest =>
      cases rest with
      | nil => exact twins.answering fun _ => rfl
      | cons action rest =>
          -- What a document is answered is only noted, and the note is veiled.
          refine { twins with control := .perform action _ ?_ }
          intro readsCache
          simp [Frame.heeded, readsCache]
  | measured id source => exact twins.finishEdit id source frames
  | snapshot run => exact (twins.takeSnapshot run).answering fun _ => rfl
  | rearm id rest outcomes =>
      cases same rfl
      cases left <;> exact twins.rearmNext rest _ frames

theorem proceed (twins : Twins unseen cached plain) :
    Twins unseen cached.proceed plain.proceed := by
  have control := twins.control
  rw [Session.proceed, Session.proceed]
  generalize cached.control = left, plain.control = right at control
  cases control with
  | idle => exact twins
  | perform action frames ignored => exact twins.perform action frames ignored
  | @answer left right frames same =>
      cases frames with
      | nil => exact { twins with control := .idle }
      | cons frame frames => exact twins.resume frame frames same

/-! ### Moves -/

theorem isIdle (twins : Twins unseen cached plain) :
    plain.isIdle = cached.isIdle := by
  have control := twins.control
  rw [Session.isIdle, Session.isIdle]
  generalize cached.control = left, plain.control = right at control
  cases control <;> rfl

theorem create (twins : Twins unseen cached plain) (source : Source) :
    Twins unseen (cached.create source) (plain.create source) :=
  { twins with
    sources := by simp [Session.create, twins.sources]
    answer := fun _ => by simp [Session.create, twins.sources] }

theorem act (twins : Twins unseen cached plain) {action : Action}
    (elsewhere : action.readsCache = false) :
    Twins unseen (cached.act action) (plain.act action) :=
  { twins with
    control := .perform action [.host] fun asks => by
      rw [elsewhere] at asks
      cases asks }

theorem highlightNow (twins : Twins unseen cached plain) (id : DocumentId) :
    Twins unseen (cached.highlightNow id) (plain.highlightNow id) := by
  refine ite (by rw [twins.held]) (twins.beginNow true id []) ?_
  exact { twins with answer := fun _ => rfl }

theorem tell (twins : Twins unseen cached plain) (notice : Notice) :
    Twins unseen
      ({ cached with notices := cached.notices.erase notice }.note
        (.closed notice.id))
      ({ plain with notices := plain.notices.erase notice }.note
        (.closed notice.id)) := by
  apply note _ rfl
  exact { twins with
    notices := by rw [twins.notices]
    ahead := fun other member =>
      twins.ahead other (List.mem_of_mem_erase member) }

/-- What a run makes possible, if there is one, and leads to twins. -/
theorem onRun (twins : Twins unseen cached plain) (id : DocumentId)
    (generation : Nat) {first second : Run → Option Session}
    (found : ∀ run ∈ cached.runs,
      Option.Rel (Twins unseen) (first run) (second run.uncached)) :
    Option.Rel (Twins unseen)
      (match cached.findRun? id generation with
        | none => none
        | some run => first run)
      (match plain.findRun? id generation with
        | none => none
        | some run => second run) := by
  rw [twins.findRun?]
  cases success : cached.findRun? id generation with
  | none => exact .none
  | some run => exact found run (findRun?_mem success)

theorem isIdle_iff (twins : Twins unseen cached plain) :
    plain.isIdle = true ↔ cached.isIdle = true :=
  Bool.coe_iff_coe.mpr twins.isIdle

/-- A run goes on for both, whatever time its computation has taken in each. -/
theorem move?_poll (twins : Twins unseen cached plain) (id : DocumentId)
    (generation first second : Nat) :
    Option.Rel (Twins unseen) (cached.move? (.poll id generation first))
      (plain.move? (.poll id generation second)) := by
  refine possible twins.isIdle_iff (twins.onRun id generation fun run member => ?_)
  refine possible ?_ (.some (twins.poll member first second))
  rw [Run.uncached_phase, Phase.uncached_isReady]

/-- Twins can make the same moves, and are twins afterwards unless the host asked
for the cache. -/
theorem move?_same (twins : Twins unseen cached plain) {move : Move}
    (elsewhere : move.readsCache = false) :
    Option.Rel (Twins unseen) (cached.move? move) (plain.move? move) := by
  have idle := twins.isIdle_iff
  cases move with
  | create source => exact possible idle (.some (twins.create source))
  | act action => exact possible idle (.some (twins.act elsewhere))
  | highlightNow id => exact possible idle (.some (twins.highlightNow id))
  | proceed =>
      rw [Session.move?, Session.move?, twins.isIdle]
      split
      · exact .none
      · exact .some twins.proceed
  | tell notice =>
      refine possible ?_ (.some (twins.tell notice))
      rw [twins.isIdle, twins.notices]
  | tick time =>
      refine possible ?_ (.some { twins with clock := rfl })
      rw [twins.isIdle, twins.clock]
  | wake id generation =>
      refine possible idle (twins.onRun id generation fun run _ => ?_)
      rw [Run.uncached_phase]
      cases run.phase with
      | sleeping deadline =>
          refine possible ?_ (.some (twins.enterPhase run .due rfl))
          rw [twins.clock]
      | _ => exact .none
  | poll id generation nanoseconds =>
      exact twins.move?_poll id generation nanoseconds nanoseconds
  | complete id generation =>
      refine twins.onRun id generation fun run _ => ?_
      rw [Run.uncached_phase]
      cases run.phase with
      | computing text => exact .some (twins.complete run text)
      | _ => exact .none
  | fail id generation reason =>
      refine twins.onRun id generation fun run _ => ?_
      rw [Run.uncached_phase]
      cases run.phase with
      | computing text => exact .some (twins.breakOff run reason)
      | _ => exact .none

/-- Twins can make moves that differ in nothing but the time of a computation, and
are twins afterwards unless the host asked for the cache. -/
theorem move? (twins : Twins unseen cached plain) {left right : Move}
    (same : right.untimed = left.untimed) (elsewhere : left.readsCache = false) :
    Option.Rel (Twins unseen) (cached.move? left) (plain.move? right) := by
  obtain rfl | ⟨id, generation, first, second, rfl, rfl⟩ :=
    Move.eq_or_poll_of_untimed same
  · exact twins.move?_same elsewhere
  · exact twins.move?_poll id generation first second

/-! ### A clock that stands still -/

theorem findMove (twins : Twins unseen cached plain) {wanted : Run → Bool}
    (left right : Run → Move) (same : ∀ run, wanted run.uncached = wanted run)
    (sameMove : ∀ run, (right run.uncached).untimed = (left run).untimed) :
    ((plain.runs.find? wanted).map right).map Move.untimed =
      ((cached.runs.find? wanted).map left).map Move.untimed := by
  have wants : wanted ∘ Run.uncached = wanted := funext same
  rw [twins.runs, List.find?_map, wants]
  cases cached.runs.find? wanted with
  | none => rfl
  | some run => exact congrArg some (sameMove run)

theorem isDue (twins : Twins unseen cached plain) {notice : Notice}
    (member : notice ∈ cached.notices) :
    notice.isDue plain.runs = notice.isDue cached.runs := by
  rw [Notice.isDue, Notice.isDue, twins.runs, Bool.eq_iff_iff, List.all_eq_true,
    List.all_eq_true]
  refine forall₂_congr fun run ahead => ?_
  rw [decide_eq_true_iff, decide_eq_true_iff,
    Run.mem_uncached_iff (twins.ahead notice member run ahead)]

theorem nextTurn? (twins : Twins unseen cached plain) :
    plain.nextTurn?.map Move.untimed = cached.nextTurn?.map Move.untimed := by
  have due : (plain.notices.find? (·.isDue plain.runs)) =
      cached.notices.find? (·.isDue cached.runs) := by
    rw [twins.notices]
    exact List.find?_congr fun notice member => twins.isDue member
  rw [Session.nextTurn?, Session.nextTurn?, due]
  split
  · rfl
  · exact twins.findMove _ _ (fun run => by simp) fun _ => rfl

/-- The same comes next for both, at the time that each has taken. -/
theorem nextMove? (twins : Twins unseen cached plain) :
    plain.nextMove?.map Move.untimed = cached.nextMove?.map Move.untimed := by
  rw [Session.nextMove?, Session.nextMove?, twins.isIdle]
  split
  · rfl
  · simp only [Option.map_or]
    rw [twins.nextTurn?,
      twins.findMove cached.pollNow plain.pollNow (fun run => by simp) fun _ => rfl,
      twins.findMove cached.pollNow plain.pollNow (fun run => by simp) fun _ => rfl,
      twins.findMove Run.complete Run.complete (fun run => by simp) fun _ => rfl]

theorem pendingActions (twins : Twins unseen cached plain) :
    plain.pendingActions = cached.pendingActions := by
  have control := twins.control
  rw [Session.pendingActions, Session.pendingActions, twins.sources]
  generalize cached.control = left, plain.control = right at control
  cases control <;> rfl

theorem actionWorkload (twins : Twins unseen cached plain) :
    plain.actionWorkload = cached.actionWorkload := by
  rw [Session.actionWorkload, Session.actionWorkload, twins.registry,
    twins.pendingActions]

theorem workload (twins : Twins unseen cached plain) :
    plain.workload = cached.workload := by
  have runs : plain.runs.map (·.phase.workload) =
      cached.runs.map (·.phase.workload) := by
    rw [twins.runs, List.map_map]
    apply List.map_congr_left
    intro run _
    exact Phase.uncached_workload run.phase
  have control := twins.control
  rw [Session.workload, Session.workload, twins.pendingActions,
    twins.actionWorkload, twins.notices, runs]
  generalize cached.control = left, plain.control = right at control
  cases control <;> rfl

theorem settleWithin (twins : Twins unseen cached plain) (moves : Nat) :
    Twins unseen (cached.settleWithin moves) (plain.settleWithin moves) := by
  induction moves generalizing cached plain with
  | zero => exact twins
  | succ moves induction =>
      have same := twins.nextMove?
      rw [Session.settleWithin, Session.settleWithin]
      cases next : cached.nextMove? with
      | none =>
          rw [next, Option.map_none, Option.map_eq_none_iff] at same
          rw [same]
          exact twins
      | some left =>
          rw [next, Option.map_some] at same
          obtain ⟨right, nextThere, sameMove⟩ := Option.map_eq_some_iff.mp same
          rw [nextThere, Option.bind_some, Option.bind_some]
          have moved := twins.move? sameMove (readsCache_of_nextMove? next)
          generalize cached.move? left = first, plain.move? right = second at moved
          cases moved with
          | none => exact twins
          | some after => exact induction after

theorem settle (twins : Twins unseen cached plain) :
    Twins unseen cached.settle plain.settle := by
  rw [Session.settle, Session.settle, twins.workload]
  exact twins.settleWithin _

/-! ### Time -/

theorem wakeIfDue (twins : Twins unseen cached plain) (run : Run) :
    Twins unseen (cached.wakeIfDue run) (plain.wakeIfDue run.uncached) := by
  rw [Session.wakeIfDue, Session.wakeIfDue, Run.uncached_phase,
    Phase.uncached_deadline?]
  cases run.phase.deadline? with
  | none => exact twins
  | some deadline =>
      refine ite ?_ (twins.enterPhase run .due rfl) twins
      rw [twins.clock]

theorem wakeAll (twins : Twins unseen cached plain) :
    Twins unseen cached.wakeAll plain.wakeAll := by
  rw [Session.wakeAll, Session.wakeAll, twins.runs, List.foldl_map]
  generalize cached.runs = runs
  induction runs generalizing cached plain with
  | nil => exact twins
  | cons run later induction => exact induction (twins.wakeIfDue run)

theorem nextDeadline? (twins : Twins unseen cached plain) (time : Nat) :
    plain.nextDeadline? time = cached.nextDeadline? time := by
  rw [Session.nextDeadline?, Session.nextDeadline?, twins.runs, List.filterMap_map]
  have same : (fun run : Run => run.phase.deadline?) ∘ Run.uncached =
      (·.phase.deadline?) :=
    funext fun run => Phase.uncached_deadline? run.phase
  rw [same]

theorem atTime (twins : Twins unseen cached plain) (time : Nat) :
    Twins unseen { cached with clock := max cached.clock time }
      { plain with clock := max plain.clock time } :=
  { twins with clock := by rw [twins.clock] }

theorem advanceWithin (twins : Twins unseen cached plain) (stops time : Nat) :
    Twins unseen (cached.advanceWithin stops time)
      (plain.advanceWithin stops time) := by
  induction stops generalizing cached plain with
  | zero => exact twins.atTime time
  | succ stops induction =>
      rw [Session.advanceWithin, Session.advanceWithin, twins.nextDeadline?]
      cases cached.nextDeadline? time with
      | none => exact twins.atTime time
      | some deadline => exact induction (twins.atTime deadline).wakeAll.settle

theorem advance (twins : Twins unseen cached plain) (duration : Nat) :
    Twins unseen (cached.advance duration) (plain.advance duration) := by
  have runs : plain.runs.length = cached.runs.length := by
    rw [twins.runs, List.length_map]
  rw [Session.advance, Session.advance, runs, twins.pendingActions,
    twins.registry, twins.clock]
  exact twins.advanceWithin _ _

end Twins

end Session

end LogTint
