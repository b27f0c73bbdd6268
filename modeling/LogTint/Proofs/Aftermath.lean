import LogTint.Proofs.Settling
import LogTint.Proofs.Telling

/-!
# What goes on when no document is tracked

Once no document is tracked, no run publishes anything any more: whatever is under way
ends in silence.  The host hears only what it is owed already, of documents that were
found closed before and of computations that broke off before.  This holds as long as
the host does nothing, whatever time passes.
-/

namespace LogTint

/-- Whether a move is not the host's, and no computation breaks off in it. -/
def Move.goesOn : Move → Bool
  | .proceed | .tell _ | .wake _ _ | .poll _ _ _ | .complete _ _ | .tick _ => true
  | .create _ | .act _ | .highlightNow _ | .fail _ _ _ => false

/-- Whether nothing is left to carry out but to take note of an answer. -/
def Control.isSpent : Control → Bool
  | .idle | .answer _ [] => true
  | _ => false

namespace Session

variable {session middle final : Session} {run : Run} {event : Event}

/-- What the host is going to be told although no document is tracked. -/
inductive Owes (session : Session) : Event → Prop where
  | closed {notice} (member : notice ∈ session.notices) : Owes session (.closed notice.id)
  | broken {run reason} (member : run ∈ session.runs) (failed : run.phase = .failed reason) :
      Owes session (.error run.id (.computationFailed reason))

/-- The host hears nothing of a document but what it was owed. -/
def Hears (owed : Event → Prop) (session final : Session) : Prop :=
  ∃ new, final.log = session.log ++ new ∧
    ∀ noted ∈ new, noted.2.news? = none ∨ owed noted.2

/-- A session without documents goes on to another one. -/
structure Fades (session final : Session) : Prop where
  untracked : final.registry.entries = []
  control : session.control.isSpent = true → final.control.isSpent = true
  owes : ∀ {event}, final.Owes event → session.Owes event
  hears : Hears session.Owes session final

/-! ## Changes that owe the host nothing new -/

theorem Owes.congr (owes : final.Owes event) (notices : final.notices ⊆ session.notices)
    (runs : ∀ run ∈ final.runs, ∀ reason, run.phase = .failed reason → run ∈ session.runs) :
    session.Owes event := by
  cases owes with
  | closed member => exact .closed (notices member)
  | broken member failed => exact .broken (runs _ member _ failed) failed

/-- Nothing is owed while nothing but timers is under way. -/
theorem not_owes (noNotices : session.notices = [])
    (asleep : ∀ run ∈ session.runs, run.phase.isSleeping = true) : ¬session.Owes event := by
  intro owes
  cases owes with
  | closed member =>
      rw [noNotices] at member
      cases member
  | broken member failed =>
      have sleeps := asleep _ member
      rw [failed] at sleeps
      cases sleeps

theorem owes_of_enterPhase {phase : Phase} (unbroken : ∀ reason, phase ≠ .failed reason)
    (owes : (session.enterPhase run phase).Owes event) : session.Owes event := by
  refine owes.congr (List.Subset.refl _) fun later member reason failed => ?_
  rcases List.mem_append.mp member with kept | last
  · exact List.mem_of_mem_filter kept
  · rw [List.mem_singleton.mp last] at failed
    exact absurd failed (unbroken reason)

/-- What comes next while the clock stands still is never a move of the host. -/
theorem goesOn_of_nextMove? {move : Move} (next : session.nextMove? = some move) :
    move.goesOn = true := by
  by_cases idle : session.control = .idle
  · rcases nextMove?_of_idle idle next with ⟨_, _, _, rfl⟩ | ⟨_, _, rfl⟩ | ⟨_, _, _, rfl⟩
    · rfl
    · rfl
    · rfl
  · rw [nextMove?, if_pos (by simpa [isIdle] using idle)] at next
    cases next
    rfl

namespace Fades

theorem refl (untracked : session.registry.entries = []) : Fades session session :=
  ⟨untracked, id, id, [], (List.append_nil _).symm, List.forall_mem_nil _⟩

theorem trans (first : Fades session middle) (second : Fades middle final) :
    Fades session final := by
  obtain ⟨new, log, plain⟩ := first.hears
  obtain ⟨later, logLater, plainLater⟩ := second.hears
  refine ⟨second.untracked, second.control ∘ first.control, first.owes ∘ second.owes,
    new ++ later, by rw [logLater, log, List.append_assoc], fun noted member => ?_⟩
  rcases List.mem_append.mp member with now | then_
  · exact plain noted now
  · exact (plainLater noted then_).imp_right first.owes

theorem next (first : Fades session middle)
    (second : middle.registry.entries = [] → Fades middle final) : Fades session final :=
  first.trans (second first.untracked)

/-- The host hears nothing. -/
theorem aside (untracked : final.registry.entries = [])
    (control : session.control.isSpent = true → final.control.isSpent = true)
    (owes : ∀ {event}, final.Owes event → session.Owes event)
    (log : final.log = session.log) : Fades session final :=
  ⟨untracked, control, owes, [], by rw [log, List.append_nil], List.forall_mem_nil _⟩

/-- Neither runs nor notices change. -/
theorem same (untracked : final.registry.entries = [])
    (control : session.control.isSpent = true → final.control.isSpent = true)
    (runs : final.runs = session.runs) (notices : final.notices = session.notices)
    (log : final.log = session.log) : Fades session final :=
  .aside untracked control
    (fun owes => owes.congr (notices ▸ List.Subset.refl _) fun _ member _ _ => runs ▸ member)
    log

/-- The host hears something that it is owed, or of no document. -/
theorem note (untracked : session.registry.entries = [])
    (plain : event.news? = none ∨ session.Owes event) :
    Fades session (session.note event) := by
  refine ⟨untracked, id, fun owes => ?_, [_], rfl, ?_⟩
  · exact owes.congr (List.Subset.refl _) fun _ member _ _ => member
  · rintro noted member
    rw [List.mem_singleton.mp member]
    exact plain

variable (untracked : session.registry.entries = [])
include untracked

theorem count (occurrence : Occurrence) : Fades session (session.count occurrence) :=
  .same untracked id rfl rfl rfl

theorem answering (answer : Answer) : Fades session (session.answering answer []) :=
  .same untracked (fun _ => rfl) rfl rfl rfl

theorem enterPhase {phase : Phase} (unbroken : ∀ reason, phase ≠ .failed reason) :
    Fades session (session.enterPhase run phase) :=
  .aside untracked id (owes_of_enterPhase unbroken) rfl

theorem passLock (id : DocumentId) : Fades session (session.passLock id) := by
  unfold Session.passLock
  split
  · exact enterPhase untracked fun _ => Phase.noConfusion
  · exact .refl untracked

theorem withoutRun (run : Run) : Fades session
    { session with runs := session.runs.filter (!·.is run.id run.generation) } :=
  .aside untracked id
    (fun owes => owes.congr (List.Subset.refl _) fun _ member _ _ =>
      List.mem_of_mem_filter member) rfl

theorem removeRun (run : Run) : Fades session (session.removeRun run) := by
  unfold Session.removeRun
  dsimp only
  split
  · exact (withoutRun untracked run).next fun none => passLock none run.id
  · exact withoutRun untracked run

/-! ## Runs that end -/

theorem close : Fades session session.close := by
  have ids : session.registry.ids = [] := by rw [Registry.ids, untracked, List.map_nil]
  unfold Session.close
  rw [ids]
  refine .same ?_ id rfl rfl rfl
  exact congrArg (List.map _) untracked

theorem endCall : Fades session session.endCall := by
  let ended : Session := { session with calls := session.calls - 1 }
  have ends : Fades session ended := .same untracked id rfl rfl rfl
  unfold Session.endCall
  dsimp only
  split
  · exact ends.next close
  · exact ends

theorem reply (origin : Origin) (document : DocumentId) (result : Answer) :
    Fades session (session.reply origin document result) := by
  unfold Session.reply
  split
  case h_1 => exact .refl untracked
  case h_2 =>
      have answered : Fades session { session with answer := result } :=
        .same untracked id rfl rfl rfl
      exact answered.next endCall
  case h_3 =>
      have returned : Fades session (session.note (.returned document result)) :=
        note untracked (.inl rfl)
      exact returned.next endCall

theorem finish (run : Run) (result : Answer) : Fades session (session.finish run result) :=
  (removeRun untracked run).next fun none => reply none _ _ result

theorem finishStale (run : Run) : Fades session (session.finishStale run) :=
  (count untracked .discarded).next fun none => finish none run _

theorem advanceState?_eq_none (run : Run) (before after : DocumentState) :
    session.advanceState? run before after = none := by
  rw [advanceState?, Registry.find?, untracked]
  rfl

theorem finishDropped (run : Run) : Fades session (session.finishDropped run) := by
  have absent : ¬session.registry.contains run.id = true := by
    rw [Registry.contains, Registry.find?, untracked]
    exact Bool.false_ne_true
  rw [Session.finishDropped, closeDropped_untracked absent]
  exact (count untracked .discarded).next fun none => finish none run _

/-- A run whose computation broke off tells the host. -/
theorem finishFailed {reason : String} (member : run ∈ session.runs)
    (failed : run.phase = .failed reason) :
    Fades session (session.finishFailed run reason) := by
  have owed : (session.count .computeError).Owes
      (.error run.id (.computationFailed reason)) := .broken member failed
  rw [Session.finishFailed, advanceState?_eq_none untracked]
  exact ((count untracked .computeError).next fun none => note none (.inr owed)).next
    fun none => finish none run _

theorem conclude (run : Run) (text : Text) (highlights : Highlights) (lookup : Lookup)
    (nanoseconds : Nat) :
    Fades session (session.conclude run text highlights lookup nanoseconds) := by
  have counted : Fades session (session.countLookup lookup nanoseconds) := by
    cases lookup with
    | uncached | hit => exact count untracked _
    | miss => exact (count untracked .cacheMiss).next fun none => count none _
  unfold Session.conclude
  dsimp only
  rw [advanceState?_eq_none counted.untracked]
  split
  · exact counted.next fun none => finishStale none run
  · exact counted.next fun none => finishDropped none run

/-! ## Runs that go on -/

theorem beginWork (run : Run) : Fades session (session.beginWork run []) := by
  rw [Session.beginWork, advanceState?_eq_none untracked]
  exact (finishStale untracked run).next fun none => answering none .nothing

theorem requestLock (run : Run) : Fades session (session.requestLock run []) := by
  unfold Session.requestLock
  split
  · exact (enterPhase untracked fun _ => Phase.noConfusion).next fun none =>
      answering none .nothing
  · exact beginWork untracked run

theorem poll (member : run ∈ session.runs) (nanoseconds : Nat) :
    Fades session (session.poll run nanoseconds) := by
  unfold Session.poll
  split
  case h_1 => exact requestLock untracked run
  case h_2 => exact beginWork untracked run
  case h_3 => exact conclude untracked run _ _ _ _
  case h_4 reason failed => exact finishFailed untracked member failed
  case h_5 => exact .refl untracked

theorem complete (run : Run) (text : Text) : Fades session (session.complete run text) := by
  obtain ⟨cache, looked⟩ := highlightText_eq session text run.config.highlight
  have highlighted : Fades session (session.highlightText text run.config.highlight).2 := by
    rw [looked]
    exact .same untracked id rfl rfl rfl
  exact ((highlighted.next fun none => withoutRun none run).next fun none =>
    passLock none run.id).next fun none => enterPhase none fun _ => Phase.noConfusion

theorem tell {notice : Notice} (member : notice ∈ session.notices) :
    Fades session
      ({ session with notices := session.notices.erase notice }.note (.closed notice.id)) := by
  refine ⟨untracked, id, fun owes => ?_, [_], rfl, ?_⟩
  · exact owes.congr List.erase_subset fun _ member _ _ => member
  · intro noted last
    rw [List.mem_singleton.mp last]
    exact .inr (.closed member)

/-! ## Moves and time -/

theorem of_move {move : Move} (spent : session.control.isSpent = true)
    (moved : session.move? move = some final) (goesOn : move.goesOn = true) :
    Fades session final := by
  cases move?_makes moved with
  | create | act | highlightNow | fail => cases goesOn
  | tell member => exact tell untracked member
  | wake => exact enterPhase untracked fun _ => Phase.noConfusion
  | poll _ found => exact poll untracked (findRun?_mem found) _
  | complete => exact complete untracked _ _
  | tick => exact .same untracked id rfl rfl rfl
  | proceed busy =>
      unfold proceed
      split
      case h_1 => exact .refl untracked
      case h_2 action frames waiting =>
          rw [waiting] at spent
          cases spent
      case h_3 => exact .same untracked (fun _ => rfl) rfl rfl rfl
      case h_4 answer frame frames waiting =>
          rw [waiting] at spent
          cases spent

theorem of_moves {moves : List Move} (spent : session.control.isSpent = true)
    (reached : session.moves? moves = some final)
    (goOn : ∀ move ∈ moves, move.goesOn = true) : Fades session final := by
  induction moves generalizing session with
  | nil =>
      cases reached
      exact .refl untracked
  | cons move moves induction =>
      obtain ⟨middle, moved, rest⟩ := moves?_cons_iff.mp reached
      have first := of_move untracked spent moved (goOn move List.mem_cons_self)
      exact first.trans (induction first.untracked (first.control spent) rest
        fun later member => goOn later (List.mem_cons_of_mem _ member))

theorem settleWithin (spent : session.control.isSpent = true) (moves : Nat) :
    Fades session (session.settleWithin moves) := by
  induction moves generalizing session with
  | zero => exact .refl untracked
  | succ moves induction =>
      unfold Session.settleWithin
      split
      case h_1 => exact .refl untracked
      case h_2 after next =>
          obtain ⟨move, isNext, moved⟩ := Option.bind_eq_some_iff.mp next
          have first := of_move untracked spent moved (goesOn_of_nextMove? isNext)
          exact first.trans (induction first.untracked (first.control spent))

theorem settle (spent : session.control.isSpent = true) : Fades session session.settle :=
  settleWithin untracked spent _

theorem wakeAll : Fades session session.wakeAll := by
  have woken (runs : List Run) : ∀ {session : Session}, session.registry.entries = [] →
      Fades session (runs.foldl wakeIfDue session) := by
    induction runs with
    | nil => exact .refl
    | cons run runs induction =>
        intro session untracked
        refine next ?_ induction
        unfold wakeIfDue
        split
        · split
          · exact enterPhase untracked fun _ => Phase.noConfusion
          · exact .refl untracked
        · exact .refl untracked
  exact woken session.runs untracked

theorem advanceWithin (spent : session.control.isSpent = true) (stops time : Nat) :
    Fades session (session.advanceWithin stops time) := by
  induction stops generalizing session with
  | zero => exact .same untracked id rfl rfl rfl
  | succ stops induction =>
      unfold Session.advanceWithin
      split
      case h_1 => exact .same untracked id rfl rfl rfl
      case h_2 deadline _ =>
          have ticked : Fades session { session with clock := max session.clock deadline } :=
            .same untracked id rfl rfl rfl
          have woken := ticked.next wakeAll
          have settled := woken.trans (settle woken.untracked (woken.control spent))
          exact settled.trans (induction settled.untracked (settled.control spent))

/-- Time passes, as often as the host likes. -/
theorem advances (spent : session.control.isSpent = true) (durations : List Nat) :
    Fades session (session.steps (durations.map .advance)) := by
  induction durations generalizing session with
  | nil => exact .refl untracked
  | cons duration durations induction =>
      have advanced := advanceWithin untracked spent (session.runs.length +
        session.pendingActions * (session.registry.size + session.pendingActions) + 1)
        (session.clock + duration)
      have first : Fades session (session.step (.advance duration)) :=
        advanced.next fun none => .same none id rfl rfl rfl
      exact first.trans (induction first.untracked (first.control spent))

end Fades

end Session

end LogTint
