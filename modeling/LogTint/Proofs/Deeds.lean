import LogTint.Proofs.Histories
import LogTint.Proofs.MatchingMoves

/-!
# What is done for a document

Some of the moves of a history are made for a document: the host acts on it or on its
source, its runs go on, the host is told of it, time passes.  Such a move is a deed.
What a history shows of the document depends on its deeds alone, so that it may as well be
read off a session in which nothing else is done.
-/

namespace LogTint

/-- Something that is done for a document. -/
inductive Deed where
  /-- A move that is no step of an action, and not the news that the document was found
  closed. -/
  | move (move : Move)
  /-- An action is carried out. -/
  | act (action : Action)
  /-- New settings are taken over. -/
  | adopt (settings : Settings)
  /-- New settings are taken over and the document is edited. -/
  | rearm (settings : Settings)
  /-- The host is told that the document was found closed. -/
  | tell
deriving DecidableEq

/-- A deed and what the host is answered. -/
structure Dealing where
  deed : Deed
  answer : Answer
deriving DecidableEq

/-- Whether the host still holds the scheduler and no document acts after a deed. -/
def Deed.keepsCalm : Deed → Bool
  | .move (.create source) => source.isQuiet
  | .act .dropScheduler => false
  | _ => true

namespace Session

/-! ## Deeds -/

/-- What a change of settings does for a document before it comes to other documents.  A
document that stands further back in line has its turn later. -/
def adoption? (session : Session) (id : DocumentId) (settings : Settings) : Option Deed :=
  match settings.validate with
  | .error _ => none
  | .ok () =>
      if session.registry.ids.head? = some id then some (.rearm settings)
      else if id ∈ session.registry.ids then none
      else some (.adopt settings)

/-- The deed that a move amounts to for a document, if it does anything for it.  Times of
computations are left out. -/
def deed? (session : Session) (id : DocumentId) (hidden : SourceId → Bool) :
    Move → Option Deed
  | .proceed =>
      match session.control with
      | .perform (.reconfigure settings) _ => session.adoption? id settings
      | .perform action _ => if action.spares id hidden then none else some (.act action)
      | .answer _ (frame :: _) =>
          if frame.next? = some id then some (.rearm session.settings) else none
      | _ => none
  | .tell notice => if notice.id = id then some .tell else none
  | move => if move.isOwn id then some (.move move.untimed) else none

/-- A session in which something is done for a document, whatever else is going on. -/
def does (id : DocumentId) (session : Session) : Deed → Session
  | .move move => ({ session with control := .idle }.move? move).getD session
  | .act action => session.perform action []
  | .adopt settings => session.withSettings settings
  | .rearm settings => (session.withSettings settings).beginEdit id []
  | .tell =>
      { session with notices := session.notices.eraseP (·.id = id) }.note (.closed id)

/-- What the host is answered when something is done for a document: by an action that
names the document at once, by a call that it waits for once the run ends. -/
def responds (id : DocumentId) (session : Session) : Deed → Answer
  | .move move =>
      (({ session.awaiting with control := .idle }.move? move).map Session.answer).getD .nothing
  | .act action =>
      if action.document? = some id then (session.perform action []).response else .nothing
  | .adopt _ | .rearm _ | .tell => .nothing

/-- What is done for a document in a history, and what the host is answered. -/
def dealings (session : Session) (id : DocumentId) (hidden : SourceId → Bool) :
    List Move → List Dealing
  | [] => []
  | move :: moves =>
      match session.move? move with
      | none => []
      | some after =>
          ((session.deed? id hidden move).map fun deed =>
            ⟨deed, session.responds id deed⟩).toList ++ after.dealings id hidden moves

/-- What the host is answered when nothing is done but this. -/
def replay (session : Session) (id : DocumentId) : List Deed → List Dealing
  | [] => []
  | deed :: deeds =>
      ⟨deed, session.responds id deed⟩ :: (session.does id deed).replay id deeds

end Session

/-! ## Sessions that mirror what is done -/

namespace Session

variable {id : DocumentId} {hidden : SourceId → Bool} {heard : Bool}
  {session alone after : Session} {frames : List Frame} {rest : List DocumentId}
  {outcomes : List (DocumentId × EditOutcome)} {deed? : Option Deed}

/-- What an action that names the document is answered is handed on to the host. -/
theorem proceed_control (calm : session.Calm) {action : Action}
    (waiting : session.control = .perform action [.host])
    (names : action.document? = some id) :
    ∃ left, session.proceed.control = .answer (session.responds id (.act action)) left ∧
      (left = [.host] ∨ left = [.call, .host]) := by
  have concerns : action.spares id (fun _ => false) = false := by
    cases action <;> cases names <;> simp [Action.spares]
  have keeps : action ≠ .dropScheduler := by
    rintro rfl
    cases names
  have settled : ∀ settings, action ≠ .reconfigure settings := by
    rintro settings rfl
    cases names
  have same : Matches id (fun _ => false) false true session session := .of_calm calm
  have answers : (session.perform action [.host]).response =
      (session.perform action []).response :=
    (same.perform concerns keeps settled (fun _ _ => rfl) [] [.host]).2 names
  obtain ⟨answer, control⟩ := perform_control calm.quiet calm.held settled [.host]
  rw [responds, if_pos names, ← answers, proceed, waiting]
  rcases control with control | control
  · exact ⟨[.host], by rw [control, response, control], .inl rfl⟩
  · exact ⟨[.call, .host], by rw [control, response, control], .inr rfl⟩

/-- A session in progress matches another one in which the same has been done for a
document.  New settings may be yet to be adopted there while the document stands in
line. -/
structure Mirrors (id : DocumentId) (hidden : SourceId → Bool) (session alone : Session) :
    Prop where
  same : Matches id hidden false (decide (id ∉ session.debts.edits)) session alone
  plain : session.control.isPlain = true

/-- What a move has done to a session, a deed does to the other one, and the host is
answered alike. -/
structure Echoes (id : DocumentId) (hidden : SourceId → Bool) (session after alone : Session)
    (deed? : Option Deed) : Prop where
  mirrors : Mirrors id hidden after (deed?.elim alone (alone.does id))
  answers : ∀ deed ∈ deed?, alone.responds id deed = session.responds id deed

theorem Mirrors.settled (mirrors : Mirrors id hidden session alone)
    (free : id ∉ session.debts.edits) : Matches id hidden false true session alone := by
  simpa [free] using mirrors.same

/-! ### Edits that follow a change of settings -/

/-- The document itself is edited next. -/
theorem Matches.mirrors_rearmNext (same : Matches id hidden heard true session alone)
    (shown : ∀ entry, session.registry.find? id = some entry → hidden entry.source = false)
    (next : rest.head? = some id) (plain : frames.all Frame.isPlain = true) :
    Mirrors id hidden (session.rearmNext rest outcomes frames) (alone.beginEdit id []) := by
  obtain ⟨later, rfl⟩ := List.head?_eq_some_iff.mp next
  obtain ⟨answer, edited, editedThere, here, there, matching⟩ :=
    same.beginEdit shown (.rearm id later outcomes :: frames) []
  rw [rearmNext, here, there]
  exact ⟨(matching.unheard.answering _ _ _ _).weaken, plain⟩

/-- Another document is edited next, or none. -/
theorem Matches.mirrors_rearmNext_other {adopted : Bool}
    (same : Matches id hidden false adopted session alone)
    (owes : id ∉ rest.tail ++ (Debts.ofFrames frames).edits → adopted = true)
    (others : rest.head? ≠ some id) (plain : frames.all Frame.isPlain = true) :
    Mirrors id hidden (session.rearmNext rest outcomes frames) alone := by
  obtain ⟨answer, left, control, plainLeft, edits, _⟩ :=
    rearmNext_control same.quiet.1 rest outcomes frames
  constructor
  · rw [debts_of_answer control, edits]
    exact (same.untouched (untouched_rearmNext same.calm others)).relax fun free =>
      owes (of_decide_eq_true free)
  · rw [control, Control.isPlain, List.all_append, plainLeft, plain]
    rfl

/-! ### Steps of an action in progress -/

/-- What is not the document's business leaves a session that echoes no deed. -/
theorem Mirrors.echoes_none (mirrors : Mirrors id hidden after alone) :
    Echoes id hidden session after alone none :=
  ⟨mirrors, nofun⟩

theorem deed?_perform {action : Action} (waiting : session.control = .perform action frames)
    (settled : ∀ settings, action ≠ .reconfigure settings) :
    session.deed? id hidden .proceed =
      if action.spares id hidden then none else some (.act action) := by
  rw [Session.deed?, waiting]
  cases action with
  | reconfigure settings => exact absurd rfl (settled settings)
  | _ => rfl

/-- What an action in progress does for the document is the action itself or an edit that
follows a change of settings. -/
theorem deed?_proceed {deed : Deed} (given : session.deed? id hidden .proceed = some deed) :
    (∃ settings, deed = .adopt settings ∨ deed = .rearm settings) ∨
      ∃ action frames, deed = .act action ∧ session.control = .perform action frames := by
  rw [Session.deed?] at given
  split at given
  case h_1 settings _ _ =>
      unfold adoption? at given
      split at given
      · cases given
      · split at given
        · cases given
          exact .inl ⟨settings, .inr rfl⟩
        · obtain ⟨_, same⟩ := Option.ite_none_left_eq_some.mp given
          cases same
          exact .inl ⟨settings, .inl rfl⟩
  case h_2 action frames _ waiting =>
      obtain ⟨_, same⟩ := Option.ite_none_left_eq_some.mp given
      cases same
      exact .inr ⟨action, frames, rfl, waiting⟩
  case h_3 =>
      obtain ⟨_, same⟩ := Option.ite_none_right_eq_some.mp given
      cases same
      exact .inl ⟨session.settings, .inr rfl⟩
  case h_4 => cases given

/-- An action is carried out. -/
theorem Mirrors.perform {action : Action} (mirrors : Mirrors id hidden session alone)
    (shown : ∀ entry, session.registry.find? id = some entry → hidden entry.source = false)
    (waiting : session.control = .perform action [.host])
    (keeps : action ≠ .dropScheduler)
    (settled : ∀ settings, action ≠ .reconfigure settings) :
    Echoes id hidden session (session.perform action [.host]) alone
      (session.deed? id hidden .proceed) := by
  have same : Matches id hidden false true session alone := by
    apply mirrors.settled
    rw [debts_of_perform waiting]
    exact List.not_mem_nil
  have mirrored : ∀ {alone : Session},
      Matches id hidden false true (session.perform action [.host]) alone →
        Mirrors id hidden (session.perform action [.host]) alone := by
    intro alone matching
    obtain ⟨answer, control | control⟩ :=
      perform_control same.quiet.1 same.held.1 settled [.host]
    · exact ⟨matching.weaken, by rw [control]; rfl⟩
    · exact ⟨matching.weaken, by rw [control]; rfl⟩
  rw [deed?_perform waiting settled]
  cases spares : action.spares id hidden with
  | true =>
      have spared : Matches id hidden false true session (session.perform action [.host]) :=
        Matches.perform_spared same.calm spares _
      exact (mirrored (spared.symm.trans same)).echoes_none
  | false =>
      refine ⟨mirrored (same.perform spares keeps settled shown [.host] []).1, ?_⟩
      rintro _ ⟨⟩
      simp only [responds]
      split
      case isTrue names => exact (same.perform spares keeps settled shown [] []).2 names
      case isFalse => rfl

theorem mem_tail_of_mem {ids : List DocumentId} (member : id ∈ ids)
    (others : ids.head? ≠ some id) : id ∈ ids.tail := by
  cases ids with
  | nil => cases member
  | cons first later =>
      exact (List.mem_cons.mp member).resolve_left fun here => others (congrArg some here.symm)

/-- A change of settings is taken over, or is refused. -/
theorem Mirrors.reconfigure {settings : Settings} (mirrors : Mirrors id hidden session alone)
    (shown : ∀ entry, session.registry.find? id = some entry → hidden entry.source = false)
    (waiting : session.control = .perform (.reconfigure settings) [.host]) :
    Echoes id hidden session
      (session.reconfigure settings session.registry.ids [.host]) alone
      (session.adoption? id settings) := by
  have same : Matches id hidden false true session alone := by
    apply mirrors.settled
    rw [debts_of_perform waiting]
    exact List.not_mem_nil
  have adopted : Matches id hidden false true { session.beginCall with settings }
      (alone.withSettings settings) :=
    { same with settings := fun _ => rfl }
  have waits : Matches id hidden false false { session.beginCall with settings } alone :=
    { same with settings := nofun }
  unfold adoption?
  cases valid : settings.validate with
  | error error =>
      rw [Session.reconfigure, valid]
      exact Mirrors.echoes_none ⟨{ same with settings := fun _ => same.settings rfl }, rfl⟩
  | ok _ =>
      rw [reconfigure_valid valid]
      dsimp only
      split
      case isTrue next =>
          refine ⟨adopted.mirrors_rearmNext shown next rfl, ?_⟩
          rintro _ ⟨⟩
          rfl
      case isFalse others =>
          split
          case isTrue member =>
              have later : id ∈ session.registry.ids.tail :=
                mem_tail_of_mem member others
              refine Mirrors.echoes_none (waits.mirrors_rearmNext_other ?_ others rfl)
              intro free
              exact absurd (List.mem_append_left _ later) free
          case isFalse =>
              refine ⟨adopted.mirrors_rearmNext_other (fun _ => rfl) others rfl, ?_⟩
              rintro _ ⟨⟩
              rfl

/-- Whoever waits for an answer is given it. -/
theorem Mirrors.resume {answer : Answer} {frame : Frame}
    (mirrors : Mirrors id hidden session alone)
    (shown : ∀ entry, session.registry.find? id = some entry → hidden entry.source = false)
    (waiting : session.control = .answer answer (frame :: frames)) :
    Echoes id hidden session (session.resume answer frame frames) alone
      (session.deed? id hidden .proceed) := by
  have same := mirrors.same
  have plain := mirrors.plain
  rw [debts_of_answer waiting] at same
  rw [waiting, Control.isPlain, List.all_cons, Bool.and_eq_true] at plain
  rw [Session.deed?, waiting]
  dsimp only
  split
  case isTrue next =>
      cases frame with
      | rearm last rest outcomes =>
          have settled : Matches id hidden false true session
              (alone.withSettings session.settings) :=
            { same with settings := fun _ => rfl }
          rw [resume_rearm]
          refine ⟨settled.mirrors_rearmNext shown next plain.2, ?_⟩
          rintro _ ⟨⟩
          rfl
      | _ => cases next
  case isFalse others =>
      obtain ⟨answerAfter, left, control, plainLeft, edits, _⟩ :=
        resume_control same.quiet.1 plain.1 answer frames
      have owes : (id ∉ (Debts.ofFrames (frame :: frames)).edits) =
          (id ∉ (Debts.ofFrames (left ++ frames)).edits) := by
        rw [edits, List.mem_append, Option.mem_toList, or_iff_right others]
      refine Mirrors.echoes_none ⟨?_, ?_⟩
      · simp only [debts_of_answer control, ← owes]
        exact same.untouched (untouched_resume same.calm plain.1 others)
      · rw [control, Control.isPlain, List.all_append, plainLeft, plain.2]
        rfl

/-- What is being carried out goes on. -/
theorem Mirrors.proceed (mirrors : Mirrors id hidden session alone)
    (shown : ∀ entry, session.registry.find? id = some entry → hidden entry.source = false)
    (keeps : session.deed? id hidden .proceed ≠ some (.act .dropScheduler)) :
    Echoes id hidden session session.proceed alone (session.deed? id hidden .proceed) := by
  cases waiting : session.control with
  | idle =>
      rw [Session.proceed, Session.deed?, waiting]
      exact mirrors.echoes_none
  | perform action frames =>
      have plain := mirrors.plain
      rw [waiting] at plain
      obtain rfl : frames = [.host] := of_decide_eq_true plain
      rw [Session.proceed, waiting]
      dsimp only
      by_cases settled : ∀ settings, action ≠ .reconfigure settings
      · refine mirrors.perform shown waiting ?_ settled
        rintro rfl
        exact keeps (deed?_perform waiting settled)
      · obtain ⟨settings, rfl⟩ := not_forall_not.mp settled
        rw [Session.deed?, waiting, perform_reconfigure mirrors.same.held.1]
        exact mirrors.reconfigure shown waiting
  | answer answer frames =>
      cases frames with
      | nil =>
          have same := mirrors.same
          rw [debts_of_answer waiting] at same
          rw [Session.proceed, Session.deed?, waiting]
          exact Mirrors.echoes_none ⟨{ same with }, rfl⟩
      | cons frame frames =>
          have resumed := mirrors.resume shown waiting
          rw [Session.proceed, waiting]
          exact resumed

/-! ### Moves -/

theorem deed?_of_isOwn {move : Move} (own : move.isOwn id = true) :
    session.deed? id hidden move = some (.move move.untimed) := by
  cases move with
  | proceed | tell | act => cases own
  | _ => simp only [deed?, own, if_true]

theorem deed?_of_isForeign {move : Move} (foreign : move.isForeign id = true) :
    session.deed? id hidden move = none := by
  cases move with
  | create | tick | act | proceed => cases foreign
  | tell => exact if_neg (of_decide_eq_true foreign)
  | highlightNow | wake | poll | complete | fail =>
      exact if_neg (by simpa [Move.isForeign, Move.isOwn] using foreign)

theorem countP_eraseP {notices : List Notice} {chosen : Notice → Bool}
    (some_ : 0 < notices.countP chosen) :
    (notices.eraseP chosen).countP chosen = notices.countP chosen - 1 := by
  obtain ⟨notice, member, isChosen⟩ := List.countP_pos_iff.mp some_
  obtain ⟨first, before, after, _, isFirst, rfl, erased⟩ :=
    List.exists_of_eraseP member isChosen
  rw [erased, List.countP_append, List.countP_append, List.countP_cons_of_pos isFirst]
  rfl

/-- The host is told that the document was found closed. -/
theorem Matches.tell {adopted : Bool} {notice : Notice}
    (same : Matches notice.id hidden heard adopted session alone)
    (member : notice ∈ session.notices) :
    Matches notice.id hidden heard adopted
      ({ session with notices := session.notices.erase notice }.note (.closed notice.id))
      (alone.does notice.id .tell) := by
  have pending : 0 < session.notices.countP (·.id = notice.id) :=
    List.countP_pos_iff.mpr ⟨notice, member, decide_eq_true rfl⟩
  have taken : Matches notice.id hidden heard adopted
      { session with notices := session.notices.erase notice }
      { alone with notices := alone.notices.eraseP (·.id = notice.id) } :=
    { same with
      notices := by
        dsimp only
        rw [countP_eraseP (by rwa [same.notices]), List.countP_erase, same.notices]
        simp [member] }
  exact taken.note _

theorem sees_of_coherent (coherent : Coherent session.debts session)
    (shown : ∀ entry, session.registry.find? id = some entry → hidden entry.source = false) :
    session.Sees id hidden := by
  intro entry found
  refine ⟨shown entry found, ?_⟩
  rintro run member rfl
  rw [(coherent.bounded run member found).2]
  exact shown entry found

theorem exists_of_rel {Related : Session → Session → Prop} {after? : Option Session}
    (related : Option.Rel Related (some session) after?) :
    ∃ after, after? = some after ∧ Related session after := by
  cases related with
  | some holds => exact ⟨_, rfl, holds⟩

theorem answer_of_rel {adopted : Bool} {left? right? : Option Session}
    (related : Option.Rel (Matches id hidden true adopted) left? right?) :
    (left?.map Session.answer).getD .nothing = (right?.map Session.answer).getD .nothing := by
  cases related with
  | none => rfl
  | some same => exact (same.answer rfl).symm

/-- What is not a step of an action leaves no more and no less to do. -/
theorem debts_of_move? (calm : session.Calm) {move : Move}
    (apart : move.isActing = false) (moved : session.move? move = some after) :
    after.debts = session.debts ∧
      (session.control.isPlain = true → after.control.isPlain = true) := by
  rcases control_of_move? calm apart moved with same | ⟨idle, answers⟩
  · rw [debts, same]
    exact ⟨rfl, fun plain => plain⟩
  · rw [debts_of_answer answers, debts_of_idle (isIdle_iff.mpr idle), answers]
    exact ⟨rfl, fun _ => rfl⟩

/-- A call waits until nothing is owed to the document. -/
theorem free_of_move? {move : Move} (moved : session.move? move = some after)
    (other : DocumentId) (calls : move = .highlightNow other) :
    decide (id ∉ session.debts.edits) = true := by
  subst calls
  rw [debts_of_idle (isIdle_of_move? rfl rfl moved)]
  exact decide_eq_true List.not_mem_nil

/-- A move that is made for the document has the same effect where nothing else is done. -/
theorem Mirrors.own (mirrors : Mirrors id hidden session alone)
    (sees : session.Sees id hidden) {move : Move} (own : move.isOwn id = true)
    (quiet : ∀ source, move = .create source → source.isQuiet = true)
    (moved : session.move? move = some after) :
    Echoes id hidden session after alone (some (.move move.untimed)) := by
  have apart := Move.isActing_of_isOwn own
  have idle (waits : move.isEnding = false) : session.isIdle = true :=
    isIdle_of_move? waits apart moved
  have settled : ∀ other, move = .highlightNow other →
      decide (id ∉ session.debts.edits) = true := free_of_move? moved
  obtain ⟨debts, plain⟩ := debts_of_move? mirrors.same.calm apart moved
  constructor
  · have halted : Matches id hidden false _ session { alone with control := .idle } :=
      { mirrors.same with }
    have steps := halted.move? sees move.untimed_untimed own
      (fun waits => (idle waits).symm) quiet settled
    rw [moved] at steps
    obtain ⟨afterThere, movedThere, matching⟩ := exists_of_rel steps
    rw [Option.elim_some, does, movedThere, Option.getD_some]
    exact ⟨by rwa [debts], plain mirrors.plain⟩
  · rintro _ ⟨⟩
    have heard : Matches id hidden true _ { session.awaiting with control := .idle }
        { alone.awaiting with control := .idle } :=
      { mirrors.same with answer := fun _ => rfl }
    have steps : Option.Rel (Matches id hidden true _)
        (Session.move? { session.awaiting with control := .idle } move.untimed)
        (Session.move? { alone.awaiting with control := .idle } move.untimed) :=
      heard.move?_same sees (by simpa using own) (fun _ => rfl) (by simpa using quiet)
        (by simpa using settled)
    exact (answer_of_rel steps).symm

/-- A move that is made for another document does nothing for this one. -/
theorem Mirrors.foreign (mirrors : Mirrors id hidden session alone) {move : Move}
    (foreign : move.isForeign id = true) (moved : session.move? move = some after) :
    Mirrors id hidden after alone := by
  obtain ⟨debts, plain⟩ :=
    debts_of_move? mirrors.same.calm (Move.isActing_of_isForeign foreign) moved
  have untouched := mirrors.same.untouched
    (untouched_move? mirrors.same.calm foreign moved)
  exact ⟨by rwa [debts], plain mirrors.plain⟩

/-- What a move does to a session, its deed does where nothing else is done. -/
theorem move?_echoes (mirrors : Mirrors id hidden session alone)
    (coherent : Coherent session.debts session)
    (shown : ∀ entry, session.registry.find? id = some entry → hidden entry.source = false)
    {move : Move} (keeps : ∀ deed ∈ session.deed? id hidden move, deed.keepsCalm = true)
    (moved : session.move? move = some after) :
    Echoes id hidden session after alone (session.deed? id hidden move) := by
  obtain own | foreign | rfl | ⟨action, rfl⟩ | ⟨notice, rfl, rfl⟩ := move.isOwn_or id
  · rw [deed?_of_isOwn own] at keeps ⊢
    refine mirrors.own (sees_of_coherent coherent shown) own ?_ moved
    rintro source rfl
    exact keeps _ rfl
  · rw [deed?_of_isForeign foreign]
    exact (mirrors.foreign foreign moved).echoes_none
  · obtain ⟨_, rfl⟩ := proceed_of_move moved
    refine mirrors.proceed shown ?_
    intro given
    cases keeps _ given
  · obtain ⟨idle, made⟩ := Option.ite_none_right_eq_some.mp moved
    cases made
    have same := mirrors.same
    rw [debts_of_idle idle] at same
    exact Mirrors.echoes_none ⟨{ same with }, rfl⟩
  · obtain ⟨⟨_, member⟩, made⟩ := Option.ite_none_right_eq_some.mp moved
    cases made
    rw [deed?, if_pos rfl]
    refine ⟨⟨mirrors.same.tell member, mirrors.plain⟩, ?_⟩
    rintro _ ⟨⟩
    rfl

end Session

end LogTint
