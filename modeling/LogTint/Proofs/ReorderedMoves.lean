import LogTint.Proofs.Histories
import LogTint.Proofs.Reordered

/-!
# An order that no history brings out

Whatever may happen to one of two sessions that differ in an order may happen to the
other, and the same is noted: only the runs that stood ahead of a piece of news when
it was sent may be others.
-/

namespace LogTint

/-- The same move, or news of the same document sent at different times. -/
inductive Move.Alike : Move → Move → Prop where
  | same (move : Move) : Alike move move
  | tell {first second : Notice} (sameId : second.id = first.id) :
      Alike (.tell first) (.tell second)

namespace Session.Reordered

variable {first second after : Session} {id : DocumentId}

/-! ### Carrying out actions -/

theorem rewriteSource (same : Reordered first second) (source : SourceId)
    (change : Buffer → Buffer) :
    (second.rewriteSource source change).1 = (first.rewriteSource source change).1 ∧
      Reordered (first.rewriteSource source change).2
        (second.rewriteSource source change).2 := by
  rw [Session.rewriteSource, Session.rewriteSource, same.sources]
  split
  case h_1 => exact ⟨rfl, same⟩
  case h_2 => exact ⟨rfl, same.modifySource source _⟩

theorem releaseSource (same : Reordered first second) (source : SourceId) :
    (second.releaseSource source).1 = (first.releaseSource source).1 ∧
      Reordered (first.releaseSource source).2 (second.releaseSource source).2 := by
  rw [Session.releaseSource, Session.releaseSource, same.sources]
  split
  case h_1 => exact ⟨rfl, same⟩
  case h_2 => exact ⟨rfl, same.modifySource source _⟩

theorem register (same : Reordered first second) (source : SourceId) :
    (second.register source).1 = (first.register source).1 ∧
      Reordered (first.register source).2 (second.register source).2 := by
  have found : second.sources[source]? = first.sources[source]? := by rw [same.sources]
  rw [Session.register, Session.register, found]
  split
  case h_1 => exact ⟨rfl, same⟩
  case h_2 =>
      refine ⟨by rw [same.nextId], ?_⟩
      apply count
      exact same.map
        (fun session =>
          { session with
            nextId := session.nextId + 1
            registry := session.registry.add ⟨⟨session.nextId⟩, source, .idle, 0, none⟩ })
        fun _ _ _ _ => rfl

theorem releaseAndTell (same : Reordered first second) (id : DocumentId) :
    Reordered (first.releaseAndTell id) (second.releaseAndTell id) :=
  (same.release id).note _

theorem unregister (same : Reordered first second) (id : DocumentId) :
    (second.unregister id).1 = (first.unregister id).1 ∧
      Reordered (first.unregister id).2 (second.unregister id).2 := by
  rw [Session.unregister, Session.unregister, same.registry]
  split
  · exact ⟨rfl, same.releaseAndTell id⟩
  · exact ⟨rfl, same⟩

theorem droppedIds (same : Reordered first second) :
    second.droppedIds = first.droppedIds := by
  simp only [Session.droppedIds, same.registry, same.isAlive]

theorem sweep (same : Reordered first second) :
    second.sweep.1 = first.sweep.1 ∧ Reordered first.sweep.2 second.sweep.2 := by
  rw [Session.sweep, Session.sweep, same.droppedIds]
  exact ⟨rfl, foldl releaseAndTell same _⟩

theorem shutdown (same : Reordered first second) :
    second.shutdown.1 = first.shutdown.1 ∧
      Reordered first.shutdown.2 second.shutdown.2 := by
  rw [Session.shutdown, Session.shutdown, same.registry]
  refine ⟨rfl, foldl ?_ (foldl release same _) _⟩
  exact fun same id => same.note _

theorem describe (same : Reordered first second) : second.describe = first.describe := by
  have described : ∀ runs notices answer,
      Session.describe { first with runs, notices, answer } = first.describe := by
    intro runs notices answer
    unfold Session.describe
    rfl
  rw [same.rest]
  apply described

theorem performAtOnce? (same : Reordered first second) (action : Action) :
    Option.Rel (fun left right => right.1 = left.1 ∧ Reordered left.2 right.2)
      (first.performAtOnce? action) (second.performAtOnce? action) := by
  cases action with
  | replace source text => exact .some (same.rewriteSource source _)
  | append source text => exact .some (same.rewriteSource source _)
  | release source => exact .some (same.releaseSource source)
  | register source => exact .some (same.register source)
  | unregister id => exact .some (same.unregister id)
  | sweep => exact .some same.sweep
  | shutdown => exact .some same.shutdown
  | info id => exact .some ⟨by rw [same.registry], same⟩
  | contains id => exact .some ⟨by rw [same.registry], same⟩
  | settings => exact .some ⟨by rw [same.settings], same⟩
  | clearCache =>
      refine .some ⟨by rw [same.cache], ?_⟩
      exact same.map (fun session => { session with cache := session.cache.map Cache.clear })
        fun _ _ _ _ => rfl
  | describe => exact .some ⟨congrArg Answer.description same.describe, same⟩
  | dropScheduler =>
      refine .some ⟨by rw [same.held], ?_⟩
      exact ite (by rw [same.held]) same.giveUp same
  | edit | startNow | reconfigure => exact .none

theorem perform (same : Reordered first second) (action : Action) (frames : List Frame) :
    Reordered (first.perform action frames) (second.perform action frames) := by
  refine ite (by rw [same.held]) (same.answering _ _) ?_
  have performed := same.performAtOnce? action
  cases action with
  | edit id => exact same.beginEdit id frames
  | startNow id => exact same.beginNow false id frames
  | reconfigure settings =>
      dsimp only
      rw [same.registry]
      exact same.reconfigure settings _ frames
  | _ =>
      dsimp only
      generalize first.performAtOnce? _ = left, second.performAtOnce? _ = right
        at performed
      cases performed with
      | none => exact same.answering _ _
      | some both =>
          obtain ⟨sameAnswer, performed⟩ := both
          dsimp only
          rw [sameAnswer]
          exact performed.answering _ _

theorem resume (same : Reordered first second) (answer : Answer) (frame : Frame)
    (frames : List Frame) :
    Reordered (first.resume answer frame frames) (second.resume answer frame frames) := by
  cases frame with
  | host => exact (same.withAnswer answer).answering answer frames
  | call => exact same.endCall.answering answer frames
  | acted action => exact (same.note _).answering answer frames
  | actions rest =>
      cases rest with
      | nil => exact same.answering _ _
      | cons action rest =>
          exact same.map
            (fun session =>
              { session with
                control := .perform action (.acted action :: .actions rest :: frames) })
            fun _ _ _ _ => rfl
  | measured id source => exact same.finishEdit id source frames
  | snapshot run => exact (same.takeSnapshot run).answering _ _
  | rearm id rest outcomes => cases answer <;> exact same.rearmNext rest _ frames

theorem proceed (same : Reordered first second) :
    Reordered first.proceed second.proceed := by
  rw [Session.proceed, Session.proceed, same.control]
  split
  · exact same
  · exact same.perform _ _
  · exact same.map (fun session => { session with control := .idle }) fun _ _ _ _ => rfl
  · exact same.resume _ _ _

/-! ### Moves -/

theorem isIdle (same : Reordered first second) : second.isIdle = first.isIdle := by
  rw [Session.isIdle, same.control, Session.isIdle]

theorem create (same : Reordered first second) (source : Source) :
    Reordered (first.create source) (second.create source) := by
  have created := (same.map (fun session =>
    { session with sources := session.sources ++ [source] }) fun _ _ _ _ => rfl).withAnswer
      (.count first.sources.length)
  rw [Session.create, Session.create, same.sources]
  rwa [same.sources] at created

theorem act (same : Reordered first second) (action : Action) :
    Reordered (first.act action) (second.act action) :=
  same.map (Session.act · action) fun _ _ _ _ => rfl

theorem highlightNow (same : Reordered first second) (id : DocumentId) :
    Reordered (first.highlightNow id) (second.highlightNow id) :=
  ite (by rw [same.held]) (same.beginNow true id []) (same.withAnswer _)

theorem tell (same : Reordered first second) {notice other : Notice}
    (member : notice ∈ first.notices) (otherMember : other ∈ second.notices)
    (sameId : other.id = notice.id) :
    Reordered ({ first with notices := first.notices.erase notice }.note (.closed notice.id))
      ({ second with notices := second.notices.erase other }.note (.closed other.id)) := by
  rw [sameId]
  apply note
  refine ⟨same.runs, ?_, same.answer, ?_⟩
  · have left : (second.notices.map (·.id)).Perm
        (other.id :: (second.notices.erase other).map (·.id)) :=
      (List.perm_cons_erase otherMember).map _
    have right : (first.notices.map (·.id)).Perm
        (notice.id :: (first.notices.erase notice).map (·.id)) :=
      (List.perm_cons_erase member).map _
    rw [sameId] at left
    exact (left.symm.trans (same.notices.trans right)).cons_inv
  · conv_lhs => rw [same.rest]

/-- What is possible under the same condition for both. -/
theorem possible {left right : Prop} [Decidable left] [Decidable right]
    (agree : right ↔ left) {earlier later : Option Session}
    (holding : Option.Rel Reordered earlier later) :
    Option.Rel Reordered (if left then earlier else none)
      (if right then later else none) := by
  by_cases holds : left
  · rwa [if_pos holds, if_pos (agree.mpr holds)]
  · rw [if_neg holds, if_neg (mt agree.mp holds)]
    exact .none

/-- What a run makes possible, if there is one, for both. -/
theorem onRun (same : Reordered first second) (id : DocumentId) (generation : Nat)
    {earlier later : Run → Option Session}
    (found : ∀ run, Option.Rel Reordered (earlier run) (later run)) :
    Option.Rel Reordered
      (match first.findRun? id generation with
        | none => none
        | some run => earlier run)
      (match second.findRun? id generation with
        | none => none
        | some run => later run) := by
  rw [same.findRun?]
  cases first.findRun? id generation with
  | none => exact .none
  | some run => exact found run

/-- Both can make the same moves, unless the host is told of a document. -/
theorem untold (same : Reordered first second) {move : Move}
    (untold : ∀ notice, move ≠ .tell notice) :
    Option.Rel Reordered (first.move? move) (second.move? move) := by
  have idle : second.isIdle = true ↔ first.isIdle = true :=
    Bool.coe_iff_coe.mpr same.isIdle
  cases move with
  | create source => exact possible idle (.some (same.create source))
  | act action => exact possible idle (.some (same.act action))
  | highlightNow id => exact possible idle (.some (same.highlightNow id))
  | proceed =>
      rw [Session.move?, Session.move?, same.isIdle]
      split
      · exact .none
      · exact .some same.proceed
  | tell notice => exact absurd rfl (untold notice)
  | tick time =>
      refine possible (by rw [same.isIdle, same.clock]) (.some ?_)
      exact same.map (fun session => { session with clock := time }) fun _ _ _ _ => rfl
  | wake id generation =>
      refine possible idle (same.onRun id generation fun run => ?_)
      cases run.phase with
      | sleeping deadline =>
          exact possible (by rw [same.clock]) (.some (same.enterPhase run .due))
      | _ => exact .none
  | poll id generation nanoseconds =>
      refine possible idle (same.onRun id generation fun run => ?_)
      exact possible .rfl (.some (same.poll run nanoseconds))
  | complete id generation =>
      refine same.onRun id generation fun run => ?_
      cases run.phase with
      | computing text => exact .some (same.complete run text)
      | _ => exact .none
  | fail id generation reason =>
      refine same.onRun id generation fun run => ?_
      cases run.phase with
      | computing text => exact .some (same.breakOff run reason)
      | _ => exact .none

/-- What one of the sessions can do, the other can do alike. -/
theorem move? (same : Reordered first second) {move : Move}
    (moved : first.move? move = some after) :
    ∃ other afterTwin, move.Alike other ∧ second.move? other = some afterTwin ∧
      Reordered after afterTwin := by
  by_cases tells : ∃ notice, move = .tell notice
  · obtain ⟨notice, rfl⟩ := tells
    obtain ⟨⟨idle, member⟩, told⟩ := Option.ite_none_right_eq_some.mp moved
    cases told
    obtain ⟨other, otherMember, sameId⟩ := List.mem_map.mp
      (same.notices.mem_iff.mpr (List.mem_map_of_mem member))
    refine ⟨.tell other, _, .tell sameId, ?_, same.tell member otherMember sameId⟩
    exact if_pos ⟨same.isIdle.trans idle, otherMember⟩
  · have both := same.untold fun notice tell => tells ⟨notice, tell⟩
    rw [moved] at both
    generalize twin : second.move? move = right at both
    cases both with
    | some afterSame => exact ⟨move, _, .same move, twin, afterSame⟩

/-- Whatever may happen to one of the sessions may happen to the other alike. -/
theorem moves? {moves : List Move} (same : Reordered first second)
    (reached : first.moves? moves = some after) :
    ∃ others afterTwin, List.Forall₂ Move.Alike moves others ∧
      second.moves? others = some afterTwin ∧ Reordered after afterTwin := by
  induction moves generalizing first second with
  | nil =>
      cases reached
      exact ⟨[], second, .nil, rfl, same⟩
  | cons move moves induction =>
      obtain ⟨middle, moved, rest⟩ := moves?_cons_iff.mp reached
      obtain ⟨other, middleTwin, alike, movedTwin, sameMiddle⟩ := same.move? moved
      obtain ⟨others, afterTwin, alikeRest, restTwin, sameAfter⟩ :=
        induction sameMiddle rest
      exact ⟨other :: others, afterTwin, .cons alike alikeRest,
        moves?_cons_iff.mpr ⟨middleTwin, movedTwin, restTwin⟩, sameAfter⟩

end Session.Reordered

end LogTint
