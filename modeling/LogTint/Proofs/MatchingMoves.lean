import LogTint.Proofs.MatchingActions
import LogTint.Proofs.Rearming
import Mathlib.Data.List.Count

/-!
# Moves and sessions that match

A move that is made for a document can be made in every session that matches for it, and
leaves sessions that match.  A move that is made for another document changes nothing.
-/

namespace LogTint

namespace Move

/-- Whether a move is made for a document or for all of them, and is not a step of an
action in progress. -/
def isOwn (id : DocumentId) : Move → Bool
  | .create _ | .tick _ => true
  | .highlightNow other | .wake other _ | .poll other _ _ | .complete other _
  | .fail other _ _ => decide (other = id)
  | .act _ | .proceed | .tell _ => false

/-- Whether a move is made for another document alone. -/
def isForeign (id : DocumentId) : Move → Bool
  | .highlightNow other | .wake other _ | .poll other _ _ | .complete other _
  | .fail other _ _ => decide (other ≠ id)
  | .tell notice => decide (notice.id ≠ id)
  | .create _ | .tick _ | .act _ | .proceed => false

/-- Whether a move is a step of an action. -/
def isActing : Move → Bool
  | .act _ | .proceed => true
  | _ => false

/-- Whether a computation ends or breaks off. -/
def isEnding : Move → Bool
  | .complete _ _ | .fail _ _ _ => true
  | _ => false

@[simp] theorem untimed_untimed (move : Move) : move.untimed.untimed = move.untimed := by
  cases move <;> rfl

@[simp] theorem untimed_isOwn (id : DocumentId) (move : Move) :
    move.untimed.isOwn id = move.isOwn id := by
  cases move <;> rfl

@[simp] theorem untimed_eq_create {move : Move} {source : Source} :
    move.untimed = .create source ↔ move = .create source := by
  cases move <;> simp [untimed]

@[simp] theorem untimed_eq_highlightNow {move : Move} {id : DocumentId} :
    move.untimed = .highlightNow id ↔ move = .highlightNow id := by
  cases move <;> simp [untimed]

theorem isActing_of_isOwn {id : DocumentId} {move : Move} (own : move.isOwn id = true) :
    move.isActing = false := by
  cases move with
  | act | proceed => cases own
  | _ => rfl

theorem isActing_of_isForeign {id : DocumentId} {move : Move}
    (foreign : move.isForeign id = true) : move.isActing = false := by
  cases move with
  | act | proceed => cases foreign
  | _ => rfl

/-- A move is made for the document or for another one, it tells of the document, or the
host acts. -/
theorem isOwn_or (id : DocumentId) (move : Move) :
    move.isOwn id = true ∨ move.isForeign id = true ∨ move = .proceed ∨
      (∃ action, move = .act action) ∨ ∃ notice, move = .tell notice ∧ notice.id = id := by
  cases move with
  | create | tick => exact .inl rfl
  | highlightNow other | wake other | poll other | complete other | fail other =>
      by_cases here : other = id
      · exact .inl (decide_eq_true here)
      · exact .inr (.inl (decide_eq_true here))
  | proceed => exact .inr (.inr (.inl rfl))
  | act action => exact .inr (.inr (.inr (.inl ⟨action, rfl⟩)))
  | tell notice =>
      by_cases here : notice.id = id
      · exact .inr (.inr (.inr (.inr ⟨notice, rfl, here⟩)))
      · exact .inr (.inl (decide_eq_true here))

end Move

/-! ## Sessions in progress -/

/-- The document that is edited next. -/
def Frame.next? : Frame → Option DocumentId
  | .rearm _ rest _ => rest.head?
  | _ => none

/-- Whether no document has anything left to do in an action in progress. -/
def Control.isPlain : Control → Bool
  | .idle => true
  | .perform _ frames => decide (frames = [.host])
  | .answer _ frames => frames.all Frame.isPlain

namespace Session

variable {id : DocumentId} {hidden : SourceId → Bool} {heard adopted : Bool}
  {session left right after : Session}

section InProgress

variable {answer : Answer} {frame : Frame} {frames : List Frame} {rest : List DocumentId}
  {outcomes : List (DocumentId × EditOutcome)}

/-- What is left to do of the edits that follow a change of settings, after the first. -/
theorem rearmNext_control (quiet : ∀ source ∈ session.sources, source.isQuiet = true)
    (rest : List DocumentId) (outcomes : List (DocumentId × EditOutcome))
    (frames : List Frame) :
    ∃ answer left,
      (session.rearmNext rest outcomes frames).control = .answer answer (left ++ frames) ∧
        left.all Frame.isPlain = true ∧
        (Debts.ofFrames (left ++ frames)).edits = rest.tail ++ (Debts.ofFrames frames).edits ∧
        (left.map Frame.workload).sum < 2 + 6 * rest.length := by
  cases rest with
  | nil => exact ⟨.outcomes outcomes, [], rfl, rfl, rfl, Nat.succ_pos _⟩
  | cons next later =>
      obtain ⟨answer, control⟩ :=
        beginEdit_control quiet next (.rearm next later outcomes :: frames)
      refine ⟨answer, [.call, .rearm next later outcomes], control, rfl, rfl, ?_⟩
      simp [Frame.workload]
      omega

/-- Whoever waits for an answer is given it, and less is left to do. -/
theorem resume_control (quiet : ∀ source ∈ session.sources, source.isQuiet = true)
    (plain : frame.isPlain = true) (answer : Answer) (frames : List Frame) :
    ∃ answerAfter left,
      (session.resume answer frame frames).control = .answer answerAfter (left ++ frames) ∧
        left.all Frame.isPlain = true ∧
        (Debts.ofFrames (frame :: frames)).edits =
          frame.next?.toList ++ (Debts.ofFrames (left ++ frames)).edits ∧
        (left.map Frame.workload).sum < frame.workload := by
  cases frame with
  | host | call => exact ⟨answer, [], rfl, rfl, rfl, Nat.succ_pos 0⟩
  | rearm last rest outcomes =>
      rw [resume_rearm]
      obtain ⟨answerAfter, left, control, plainLeft, edits, less⟩ :=
        rearmNext_control quiet rest (outcomes ++ (answer.outcome?.map (last, ·)).toList) frames
      refine ⟨answerAfter, left, control, plainLeft, ?_, less⟩
      rw [edits, ← List.append_assoc]
      cases rest <;> rfl
  | acted | actions | measured | snapshot => cases plain

theorem untouched_rearmNext (calm : session.Calm) (others : rest.head? ≠ some id) :
    Untouched id session (session.rearmNext rest outcomes frames) := by
  cases rest with
  | nil => exact untouched_answering id session _ _
  | cons next later =>
      have different : next ≠ id := fun same => others (congrArg some same)
      exact untouched_beginEdit different calm _

/-- What goes on after an answer leaves a document alone that is not edited next. -/
theorem untouched_resume (calm : session.Calm) (plain : frame.isPlain = true)
    (others : frame.next? ≠ some id) :
    Untouched id session (session.resume answer frame frames) := by
  cases frame with
  | host => exact { Untouched.refl id session with }
  | call =>
      exact (untouched_endCall id calm.held).trans (untouched_answering id _ answer frames)
  | rearm last rest outcomes =>
      rw [resume_rearm]
      exact untouched_rearmNext calm others
  | acted | actions | measured | snapshot => cases plain

end InProgress

/-- The sources that are read for a document are not hidden from it. -/
def Sees (session : Session) (id : DocumentId) (hidden : SourceId → Bool) : Prop :=
  ∀ entry, session.registry.find? id = some entry →
    hidden entry.source = false ∧
      ∀ run ∈ session.runs, run.id = id → hidden run.source = false

namespace Matches

/-- What a run of the document makes possible, if there is one. -/
theorem onRun (same : Matches id hidden heard adopted left right) (generation : Nat)
    {next nextThere : Run → Option Session}
    (each : ∀ run ∈ left.runs, run.id = id → ∀ other : Run, other.uncached = run.uncached →
      Option.Rel (Matches id hidden heard adopted) (next run) (nextThere other)) :
    Option.Rel (Matches id hidden heard adopted)
      (match left.findRun? id generation with
        | none => none
        | some run => next run)
      (match right.findRun? id generation with
        | none => none
        | some run => nextThere run) := by
  have both := same.findRun? generation
  cases found : left.findRun? id generation with
  | none =>
      rw [found, Option.map_none, Option.map_eq_none_iff] at both
      rw [both]
      exact .none
  | some run =>
      obtain ⟨other, foundThere, alike⟩ := same.exists_run found
      rw [foundThere]
      exact each run (findRun?_mem found) (congrArg Prod.fst (findRun?_key found)) other alike

/-- What a run of the document makes possible before it has computed. -/
theorem onStage (same : Matches id hidden heard adopted left right) (generation : Nat)
    {next nextThere : Run → Option Session}
    (done : ∀ {run text highlights lookup}, run.phase = .computed text highlights lookup →
      next run = none ∧ nextThere run = none)
    (each : ∀ run : Run, run.id = id →
      Option.Rel (Matches id hidden heard adopted) (next run) (nextThere run)) :
    Option.Rel (Matches id hidden heard adopted)
      (match left.findRun? id generation with
        | none => none
        | some run => next run)
      (match right.findRun? id generation with
        | none => none
        | some run => nextThere run) := by
  refine same.onRun generation fun run _ own other alike => ?_
  rcases Run.eq_or_computed alike with rfl | ⟨_, _, _, _, phase, phaseThere⟩
  · exact each other own
  · rw [(done phase).1, (done phaseThere).2]
    exact .none

theorem create (same : Matches id hidden heard adopted left right) {source : Source}
    (quiet : source.isQuiet = true) :
    Matches id hidden heard adopted (left.create source) (right.create source) := by
  have created : ∀ {sources : List Source}, (∀ source ∈ sources, source.isQuiet = true) →
      ∀ other ∈ sources ++ [source], other.isQuiet = true := by
    intro sources allQuiet other member
    rcases List.mem_append.mp member with earlier | last
    · exact allQuiet other earlier
    · rwa [List.mem_singleton.mp last]
  have husks := same.husks
  have length : right.sources.length = left.sources.length := by
    simpa [bareSources] using congrArg List.length husks
  rw [bareSources, bareSources] at husks
  exact { same with
    quiet := ⟨created same.quiet.1, created same.quiet.2⟩
    husks := by simp [bareSources, Session.create, husks]
    shown := fun index seen => by
      simp only [Session.create, List.getElem?_append, length]
      split
      · exact same.shown index seen
      · rfl
    answer := fun _ => congrArg Answer.count length }

/-- A run of the document goes on in both sessions, whatever time its computation has
taken in each. -/
theorem move?_poll (same : Matches id hidden heard adopted left right)
    (sees : left.Sees id hidden) (idle : right.isIdle = left.isIdle)
    (generation nanoseconds nanosecondsThere : Nat) :
    Option.Rel (Matches id hidden heard adopted)
      (left.move? (.poll id generation nanoseconds))
      (right.move? (.poll id generation nanosecondsThere)) := by
  refine possible (Bool.coe_iff_coe.mpr idle) (same.onRun generation ?_)
  intro run member own other alike
  have phases : other.phase.uncached = run.phase.uncached := congrArg Run.phase alike
  refine possible ?_ (.some ?_)
  · rw [← Phase.uncached_isReady, phases, Phase.uncached_isReady]
  · subst own
    exact same.poll (fun entry found => (sees entry found).2 run member rfl) alike
      nanoseconds nanosecondsThere

/-- A move that is made for the document is possible in both sessions or in neither, and
leaves them matching. -/
theorem move?_same (same : Matches id hidden heard adopted left right)
    (sees : left.Sees id hidden) {move : Move} (own : move.isOwn id = true)
    (idle : move.isEnding = false → right.isIdle = left.isIdle)
    (quiet : ∀ source, move = .create source → source.isQuiet = true)
    (settled : ∀ other, move = .highlightNow other → adopted = true) :
    Option.Rel (Matches id hidden heard adopted) (left.move? move) (right.move? move) := by
  cases move with
  | create source =>
      exact possible (Bool.coe_iff_coe.mpr (idle rfl)) (.some (same.create (quiet source rfl)))
  | tick time =>
      refine possible ?_ (.some { same with clock := rfl })
      rw [idle rfl, same.clock]
  | highlightNow other =>
      obtain rfl : other = id := of_decide_eq_true own
      obtain rfl := settled other rfl
      refine possible (Bool.coe_iff_coe.mpr (idle rfl)) (.some ?_)
      rw [Session.highlightNow, Session.highlightNow, if_pos same.held.1, if_pos same.held.2]
      exact same.beginNow (fun entry found => (sees entry found).1) true [] []
  | wake other generation =>
      obtain rfl : other = id := of_decide_eq_true own
      refine possible (Bool.coe_iff_coe.mpr (idle rfl)) (same.onStage generation ?_ ?_)
      · intro run _ _ _ phase
        rw [phase]
        exact ⟨rfl, rfl⟩
      · rintro run rfl
        cases run.phase with
        | sleeping deadline =>
            exact possible (by rw [same.clock]) (.some (same.enterPhase rfl))
        | _ => exact .none
  | poll other generation nanoseconds =>
      obtain rfl : other = id := of_decide_eq_true own
      exact same.move?_poll sees (idle rfl) generation nanoseconds nanoseconds
  | complete other generation =>
      obtain rfl : other = id := of_decide_eq_true own
      refine same.onStage generation ?_ ?_
      · intro run _ _ _ phase
        rw [phase]
        exact ⟨rfl, rfl⟩
      · rintro run rfl
        cases run.phase with
        | computing text => exact .some (same.complete text)
        | _ => exact .none
  | fail other generation reason =>
      obtain rfl : other = id := of_decide_eq_true own
      refine same.onStage generation ?_ ?_
      · intro run _ _ _ phase
        rw [phase]
        exact ⟨rfl, rfl⟩
      · rintro run rfl
        cases run.phase with
        | computing text => exact .some (same.breakOff reason)
        | _ => exact .none
  | act | proceed | tell => cases own

/-- The moves that are made for the document may differ in the time of a computation. -/
theorem move? (same : Matches id hidden heard adopted left right)
    (sees : left.Sees id hidden) {move moveThere : Move}
    (alike : moveThere.untimed = move.untimed) (own : move.isOwn id = true)
    (idle : move.isEnding = false → right.isIdle = left.isIdle)
    (quiet : ∀ source, move = .create source → source.isQuiet = true)
    (settled : ∀ other, move = .highlightNow other → adopted = true) :
    Option.Rel (Matches id hidden heard adopted) (left.move? move)
      (right.move? moveThere) := by
  obtain rfl | ⟨other, generation, first, second, rfl, rfl⟩ :=
    Move.eq_or_poll_of_untimed alike
  · exact same.move?_same sees own idle quiet settled
  · obtain rfl : other = id := of_decide_eq_true own
    exact same.move?_poll sees (idle rfl) generation first second

end Matches

/-- A move that is made for another document leaves all that matters to this one. -/
theorem untouched_move? (calm : session.Calm) {move : Move}
    (foreign : move.isForeign id = true) (moved : session.move? move = some after) :
    Untouched id session after := by
  have elsewhere : ∀ {other : DocumentId} {generation : Nat} {run : Run}, other ≠ id →
      session.findRun? other generation = some run → run.id ≠ id := by
    intro other generation run different found
    rwa [show run.id = other from congrArg Prod.fst (findRun?_key found)]
  cases move?_makes moved with
  | highlightNow _ other =>
      rw [highlightNow, if_pos calm.held]
      exact untouched_beginNow (of_decide_eq_true foreign) calm true []
  | @tell notice member =>
      have different : notice.id ≠ id := of_decide_eq_true foreign
      have taken : Untouched id session
          { session with notices := session.notices.erase notice } :=
        { Untouched.refl id session with notices := by simp [List.countP_erase, different] }
      exact taken.trans (untouched_note _ (by simp [Event.isAbout, different]) _)
  | wake found _ _ =>
      exact untouched_enterPhase (elsewhere (of_decide_eq_true foreign) found) _
  | poll _ found _ => exact untouched_poll (elsewhere (of_decide_eq_true foreign) found) calm _
  | complete found _ => exact untouched_complete (elsewhere (of_decide_eq_true foreign) found) _
  | fail found _ _ => exact untouched_breakOff (elsewhere (of_decide_eq_true foreign) found) _
  | create | act | proceed | tick => cases foreign

/-- What is not a step of an action waits until nothing is being carried out, unless a
computation ends. -/
theorem isIdle_of_move? {move : Move} (waits : move.isEnding = false)
    (apart : move.isActing = false) (moved : session.move? move = some after) :
    session.isIdle = true := by
  cases move with
  | act | proceed => cases apart
  | complete | fail => cases waits
  | tell | tick => exact (Option.ite_none_right_eq_some.mp moved).1.1
  | create | highlightNow | wake | poll =>
      exact (Option.ite_none_right_eq_some.mp moved).1

theorem poll_control (calm : session.Calm) (run : Run) (nanoseconds : Nat) :
    (session.poll run nanoseconds).control = session.control ∨
      (session.poll run nanoseconds).control = .answer .nothing [] := by
  unfold poll
  split
  · exact .inr (requestLock_control calm.quiet run [])
  · exact .inr (beginWork_control calm.quiet run [])
  · exact .inl (conclude_control session run _ _ _ _)
  · exact .inl (finishFailed_control session run _)
  · exact .inl rfl

/-- What is not a step of an action leaves nothing to do. -/
theorem control_of_move? (calm : session.Calm) {move : Move}
    (apart : move.isActing = false) (moved : session.move? move = some after) :
    after.control = session.control ∨
      session.control = .idle ∧ after.control = .answer .nothing [] := by
  have idle : session.isIdle = true → session.control = .idle := of_decide_eq_true
  cases move?_makes moved with
  | act | proceed => cases apart
  | highlightNow isIdle id =>
      rw [highlightNow, if_pos calm.held]
      exact .inr ⟨idle isIdle, beginNow_control calm.quiet true id []⟩
  | @poll _ _ nanoseconds run isIdle _ _ =>
      exact (poll_control calm run nanoseconds).imp_right fun answers =>
        ⟨idle isIdle, answers⟩
  | complete => exact .inl (complete_control session _ _)
  | fail => exact .inl (breakOff_control session _ _)
  | create | tell | wake | tick => exact .inl rfl

end Session

end LogTint
