import LogTint.Proofs.Replaying

/-!
# Leaving out what is done with other documents

Whatever steps on other documents the host leaves out, the others make up a history with
the same deeds.  In that history the scheduler carries out what the host still does with
other documents as soon as it is begun, and leaves their runs alone.  Only the edit of the
document that follows a change of settings has to wait for its turn.
-/

namespace LogTint

namespace Move

/-- Whether a move is a step of the host. -/
def isStep : Move → Bool
  | .create _ | .act _ | .highlightNow _ | .tick _ => true
  | _ => false

/-- Whether a step of the host is none of the business of a document. -/
def spares (id : DocumentId) (hidden : SourceId → Bool) : Move → Bool
  | .act action => action.spares id hidden
  | .highlightNow other => decide (other ≠ id)
  | _ => false

theorem spares_of_isOwn {id : DocumentId} {hidden : SourceId → Bool} (move : Move)
    (own : move.isOwn id = true) : move.spares id hidden = false := by
  cases move with
  | highlightNow => exact decide_eq_false fun other => other (of_decide_eq_true own)
  | act => cases own
  | _ => rfl

/-- The step of the host that a move is, unless it is left out. -/
def kept (move : Move) (marked : Bool) : List Move :=
  if move.isStep && marked then [move] else []

end Move

namespace Session

variable {id : DocumentId} {hidden : SourceId → Bool}
  {session alone reduced middle after later : Session} {piece further : List Move}
  {steps furtherSteps : List Move} {deeds furtherDeeds : List Deed}

/-- Some moves lead from one session to another; these steps of the host are among them,
and these deeds are done. -/
structure Reaches (id : DocumentId) (hidden : SourceId → Bool) (session after : Session)
    (piece steps : List Move) (deeds : List Deed) : Prop where
  reached : session.moves? piece = some after
  isSteps : piece.filter Move.isStep = steps
  isDeeds : session.deeds id hidden piece = deeds

namespace Reaches

theorem refl (session : Session) : Reaches id hidden session session [] [] [] :=
  ⟨rfl, rfl, rfl⟩

theorem trans (first : Reaches id hidden session middle piece steps deeds)
    (second : Reaches id hidden middle after further furtherSteps furtherDeeds) :
    Reaches id hidden session after (piece ++ further) (steps ++ furtherSteps)
      (deeds ++ furtherDeeds) where
  reached := moves?_append_iff.mpr ⟨middle, first.reached, second.reached⟩
  isSteps := by rw [List.filter_append, first.isSteps, second.isSteps]
  isDeeds := by rw [deeds_append first.reached, first.isDeeds, second.isDeeds]

theorem single {move : Move} (moved : session.move? move = some after) :
    Reaches id hidden session after [move] (if move.isStep then [move] else [])
      (session.deed? id hidden move).toList where
  reached := moves?_singleton moved
  isSteps := by cases isStep : move.isStep <;> simp [isStep]
  isDeeds := by
    rw [Session.deeds_cons moved]
    exact List.append_nil _

end Reaches

/-! ## Carrying out an action to its end -/

theorem move?_proceed (busy : session.control ≠ .idle) :
    session.move? .proceed = some session.proceed := by
  simp [move?, isIdle, busy]

theorem exists_ne (next? : Option DocumentId) : ∃ other, next? ≠ some other := by
  cases next? with
  | none => exact ⟨⟨0⟩, nofun⟩
  | some next =>
      refine ⟨⟨next.number + 1⟩, fun same => ?_⟩
      have number := congrArg DocumentId.number (Option.some.inj same)
      exact Nat.succ_ne_self _ number.symm

/-- Edits that follow a change of settings leave some document alone, so that the session
stays calm and keeps its settings. -/
theorem calm_rearmNext (calm : session.Calm) (rest : List DocumentId)
    (outcomes : List (DocumentId × EditOutcome)) (frames : List Frame) :
    (session.rearmNext rest outcomes frames).Calm ∧
      (session.rearmNext rest outcomes frames).settings = session.settings := by
  obtain ⟨other, others⟩ := exists_ne rest.head?
  have untouched : Untouched other session (session.rearmNext rest outcomes frames) :=
    untouched_rearmNext calm others
  exact ⟨untouched.calm calm, untouched.settings⟩

/-- So does whatever goes on after an answer. -/
theorem calm_resume (calm : session.Calm) {frame : Frame} (plain : frame.isPlain = true)
    (answer : Answer) (frames : List Frame) :
    (session.resume answer frame frames).Calm ∧
      (session.resume answer frame frames).settings = session.settings := by
  obtain ⟨other, others⟩ := exists_ne frame.next?
  have untouched : Untouched other session (session.resume answer frame frames) :=
    untouched_resume calm plain others
  exact ⟨untouched.calm calm, untouched.settings⟩

/-- An action that has been answered comes to its end.  The document is edited on the way
if it stands in line. -/
theorem exists_idle (id : DocumentId) (hidden : SourceId → Bool) {answer : Answer}
    {frames : List Frame} (calm : session.Calm)
    (waiting : session.control = .answer answer frames)
    (plain : frames.all Frame.isPlain = true) :
    ∃ piece after, after.control = .idle ∧
      Reaches id hidden session after piece []
        (((Debts.ofFrames frames).edits.filter (· = id)).map fun _ =>
          .rearm session.settings) := by
  -- Answering a frame may put others in its place, but their workload is smaller.
  induction size : (frames.map Frame.workload).sum using Nat.strong_induction_on
    generalizing session answer frames with
  | h total induction =>
      have moved : session.move? .proceed = some session.proceed :=
        move?_proceed (by simp [waiting])
      have first : Reaches id hidden session session.proceed [.proceed] []
          (session.deed? id hidden .proceed).toList := .single moved
      cases frames with
      | nil =>
          refine ⟨[.proceed], session.proceed, by rw [proceed, waiting], ?_⟩
          rwa [deed?, waiting] at first
      | cons frame frames =>
          rw [List.all_cons, Bool.and_eq_true] at plain
          obtain ⟨answerAfter, left, control, plainLeft, edits, less⟩ :=
            resume_control calm.quiet plain.1 answer frames
          obtain ⟨calmAfter, settings⟩ := calm_resume calm plain.1 answer frames
          have resumed : session.proceed = session.resume answer frame frames := by
            rw [proceed, waiting]
          have plainAfter : (left ++ frames).all Frame.isPlain = true := by
            rw [List.all_append, plainLeft, plain.2]
            rfl
          have lessAfter : ((left ++ frames).map Frame.workload).sum < total := by
            rw [← size, List.map_append, List.sum_append, List.map_cons, List.sum_cons]
            exact Nat.add_lt_add_right less _
          obtain ⟨piece, after, idle, rest⟩ :=
            induction _ lessAfter calmAfter control plainAfter rfl
          refine ⟨[.proceed] ++ piece, after, idle, ?_⟩
          have given : (session.deed? id hidden .proceed).toList =
              (frame.next?.toList.filter (· = id)).map fun _ => .rearm session.settings := by
            rw [deed?, waiting]
            dsimp only
            cases frame.next? with
            | none => rfl
            | some next => by_cases here : next = id <;> simp [here]
          rw [edits, List.filter_append, List.map_append, ← given, ← settings]
          rw [resumed] at first
          exact first.trans rest

/-- A call or a run that went on comes to its end. -/
theorem exists_same_control (id : DocumentId) (hidden : SourceId → Bool)
    (calm : middle.Calm)
    (control : middle.control = reduced.control ∨
      reduced.control = .idle ∧ middle.control = .answer .nothing []) :
    ∃ piece later, later.control = reduced.control ∧
      Reaches id hidden middle later piece [] [] := by
  rcases control with same | ⟨idle, answers⟩
  · exact ⟨[], middle, same, .refl middle⟩
  · obtain ⟨piece, later, idleLater, reaches⟩ := exists_idle id hidden calm answers rfl
    exact ⟨piece, later, idleLater.trans idle.symm, reaches⟩

theorem calm_perform (calm : session.Calm) {action : Action} (keeps : action ≠ .dropScheduler)
    (settled : ∀ settings, action ≠ .reconfigure settings) (frames : List Frame) :
    (session.perform action frames).Calm := by
  have same : Matches ⟨0⟩ (fun _ => false) false true session session := .of_calm calm
  cases spares : action.spares ⟨0⟩ fun _ => false with
  | true =>
      have spared : Matches ⟨0⟩ (fun _ => false) false true session
          (session.perform action frames) := Matches.perform_spared calm spares frames
      exact spared.calmThere
  | false => exact (same.perform spares keeps settled (fun _ _ => rfl) frames frames).1.calm

/-- A document that stands in line is edited once, and first if it comes first. -/
theorem deeds_of_nodup {ids : List DocumentId} (distinct : ids.Nodup) (settings : Settings) :
    (if ids.head? = some id then some (Deed.rearm settings)
      else if id ∈ ids then none else some (.adopt settings)).toList ++
        (ids.tail.filter (· = id)).map (fun _ => .rearm settings) =
      [if id ∈ ids then .rearm settings else .adopt settings] := by
  cases ids with
  | nil => rfl
  | cons first later =>
      rw [List.nodup_cons] at distinct
      rw [List.tail_cons, List.filter_eq, distinct.2.count]
      by_cases here : first = id
      · subst here
        simp [distinct.1]
      · by_cases member : id ∈ later <;> simp [here, Ne.symm here, member]

theorem proceed_reconfigure {settings : Settings} (held : session.held = true)
    (waiting : session.control = .perform (.reconfigure settings) [.host]) :
    session.proceed = session.reconfigure settings session.registry.ids [.host] ∧
      session.deed? id hidden .proceed = session.adoption? id settings := by
  rw [proceed, deed?, waiting]
  exact ⟨perform_reconfigure held settings [.host], rfl⟩

/-- New settings are taken over, and the documents behind the first one are yet to be
edited. -/
theorem reconfigure_control {settings : Settings} (calm : session.Calm)
    (accepted : settings.validate = .ok ()) :
    ∃ answer left,
      (session.reconfigure settings session.registry.ids [.host]).control =
          .answer answer left ∧
        left.all Frame.isPlain = true ∧
        (Debts.ofFrames left).edits = session.registry.ids.tail ∧
        (session.reconfigure settings session.registry.ids [.host]).Calm ∧
        (session.reconfigure settings session.registry.ids [.host]).settings = settings := by
  let called := session.beginCall.withSettings settings
  have calmCalled : called.Calm := ⟨calm.held, calm.quiet, calm.sound, calm.numbered⟩
  have taken : session.reconfigure settings session.registry.ids [.host] =
      called.rearmNext session.registry.ids [] [.call, .host] := reconfigure_valid accepted
  obtain ⟨answer, left, control, plain, edits, _⟩ :=
    rearmNext_control calmCalled.quiet session.registry.ids [] [.call, .host]
  obtain ⟨calmAfter, settingsAfter⟩ :=
    calm_rearmNext calmCalled session.registry.ids [] [.call, .host]
  rw [taken]
  refine ⟨answer, _, control, ?_, edits.trans (List.append_nil _), calmAfter, settingsAfter⟩
  rw [List.all_append, plain]
  rfl

theorem mem_ids_reconfigure {settings : Settings} (calm : session.Calm)
    (accepted : settings.validate = .ok ()) (others : session.registry.ids.head? ≠ some id) :
    id ∈ (session.reconfigure settings session.registry.ids [.host]).registry.ids ↔
      id ∈ session.registry.ids := by
  let called := session.beginCall.withSettings settings
  have calmCalled : called.Calm := ⟨calm.held, calm.quiet, calm.sound, calm.numbered⟩
  have taken : session.reconfigure settings session.registry.ids [.host] =
      called.rearmNext session.registry.ids [] [.call, .host] := reconfigure_valid accepted
  have untouched : Untouched id called
      (called.rearmNext session.registry.ids [] [.call, .host]) :=
    untouched_rearmNext calmCalled others
  rw [taken]
  exact untouched.mem_ids_iff

/-- A change of settings comes to its end.  The document is edited once if it is
registered. -/
theorem exists_reconfigured {settings : Settings} (calm : session.Calm)
    (waiting : session.control = .perform (.reconfigure settings) [.host])
    (accepted : settings.validate = .ok ()) :
    ∃ piece later, later.control = .idle ∧
      Reaches id hidden session later piece []
        [if id ∈ session.registry.ids then .rearm settings else .adopt settings] := by
  have first : Reaches id hidden session session.proceed [.proceed] []
      (session.deed? id hidden .proceed).toList :=
    .single (move?_proceed (by simp [waiting]))
  obtain ⟨proceeds, given⟩ :
      session.proceed = session.reconfigure settings session.registry.ids [.host] ∧
        session.deed? id hidden .proceed = session.adoption? id settings :=
    proceed_reconfigure calm.held waiting
  obtain ⟨answer, left, control, plain, edits, calmAfter, settingsAfter⟩ :=
    reconfigure_control calm accepted
  obtain ⟨piece, later, idle, rest⟩ := exists_idle id hidden calmAfter control plain
  rw [settingsAfter, edits] at rest
  rw [proceeds, given, adoption?, accepted] at first
  refine ⟨[.proceed] ++ piece, later, idle, ?_⟩
  rw [← deeds_of_nodup calm.numbered.1 settings]
  exact first.trans rest

/-! ## Side by side -/

/-- How far a session in which steps are left out has come while the other one carries out
an action. -/
inductive Abreast (id : DocumentId) (hidden : SourceId → Bool) (session reduced : Session) :
    Prop where
  /-- Nothing is being carried out where steps are left out, and nothing for the document
  in the other session. -/
  | level (idle : reduced.control = .idle) (free : id ∉ session.debts.edits)
      (spared : ∀ action frames, session.control = .perform action frames →
        action.spares id hidden = true)
  /-- Both are about to carry out the same action. -/
  | about (action : Action) (here : session.control = .perform action [.host])
      (there : reduced.control = .perform action [.host])
  /-- New settings are yet to be taken over where steps are left out, since the document
  still stands in line in the other session. -/
  | behind (answer : Answer) (frames : List Frame)
      (here : session.control = .answer answer frames)
      (owes : id ∈ session.debts.edits) (once : session.debts.edits.Nodup)
      (known : id ∈ session.registry.ids)
      (accepted : session.settings.validate = .ok ())
      (there : reduced.control = .perform (.reconfigure session.settings) [.host])

namespace Abreast

/-- Where steps are left out nothing is owed to the document. -/
theorem free_there (abreast : Abreast id hidden session reduced) :
    id ∉ reduced.debts.edits := by
  cases abreast with
  | level idle => rw [debts_of_idle (isIdle_iff.mpr idle)]; exact List.not_mem_nil
  | about _ _ there | behind _ _ _ _ _ _ _ there =>
      rw [debts_of_perform there]
      exact List.not_mem_nil

/-- Both are idle or the other session carries something out alone. -/
theorem idle_there (abreast : Abreast id hidden session reduced)
    (idle : session.isIdle = true) : reduced.isIdle = true := by
  have idle := isIdle_iff.mp idle
  cases abreast with
  | level idleThere => exact isIdle_iff.mpr idleThere
  | about _ here | behind _ _ here => cases here.symm.trans idle

end Abreast

/-- When a computation ends or breaks off, only runs and the cache change. -/
theorem ending_frame (distinct : Run.Distinct session.runs) {move : Move}
    (ending : move.isEnding = true) (moved : session.move? move = some after) :
    ∃ runs cache, after = { session with runs, cache } := by
  cases move?_makes moved with
  | @complete _ _ run text =>
      obtain ⟨_, cache, _, _, completed⟩ := session.complete_spec distinct run text
      exact ⟨_, cache, completed⟩
  | @fail _ _ run text _ _ reason =>
      obtain ⟨_, _, broken⟩ := session.breakOff_spec distinct run reason
      exact ⟨_, session.cache, broken⟩
  | _ => cases ending

/-- What is not a step of an action leaves both sessions abreast. -/
theorem Abreast.of_move? (abreast : Abreast id hidden session reduced)
    (calm : session.Calm) (distinct : Run.Distinct session.runs) {move : Move}
    (apart : move.isActing = false) (moved : session.move? move = some after)
    (control : later.control = reduced.control) :
    Abreast id hidden after later := by
  have busy {Goal : Prop} (here : session.control ≠ .idle)
      (framed : (∃ runs cache, after = { session with runs, cache }) → Goal) : Goal := by
    cases ending : move.isEnding with
    | true => exact framed (ending_frame distinct ending moved)
    | false => exact absurd (isIdle_iff.mp (isIdle_of_move? ending apart moved)) here
  cases abreast with
  | level idle free spared =>
      obtain ⟨debts, _⟩ := debts_of_move? calm apart moved
      refine .level (control.trans idle) (by rwa [debts]) ?_
      intro action frames performs
      rcases control_of_move? calm apart moved with same | ⟨_, answers⟩
      · exact spared action frames (same.symm.trans performs)
      · cases answers.symm.trans performs
  | about action here there =>
      refine busy (by simp [here]) ?_
      rintro ⟨runs, cache, rfl⟩
      exact .about action here (control.trans there)
  | behind answer frames here owes once known accepted there =>
      refine busy (by simp [here]) ?_
      rintro ⟨runs, cache, rfl⟩
      exact .behind answer frames here owes once known accepted (control.trans there)

/-- The session in which steps are left out can make moves with these steps of the host and
these deeds, and is abreast again afterwards. -/
def KeepsUp (id : DocumentId) (hidden : SourceId → Bool) (reduced after : Session)
    (steps : List Move) (deeds : List Deed) : Prop :=
  ∃ piece later, Reaches id hidden reduced later piece steps deeds ∧
    Abreast id hidden after later

/-! ### One move -/

section OneMove

variable {move : Move} (abreast : Abreast id hidden session reduced)
  (matching : Matches id hidden false (decide (id ∉ session.debts.edits)) session reduced)
  (coherent : Coherent session.debts session)

include abreast matching coherent

/-- A move that leaves nothing to do is made in both sessions. -/
theorem keepsUp_of_move? (moved : session.move? move = some after)
    (apart : move.isActing = false) {moveThere : Move}
    (movedThere : reduced.move? moveThere = some middle)
    (apartThere : moveThere.isActing = false) (calm : middle.Calm) :
    KeepsUp id hidden reduced after (if moveThere.isStep then [moveThere] else [])
      (reduced.deed? id hidden moveThere).toList := by
  have control := control_of_move? matching.calmThere apartThere movedThere
  obtain ⟨piece, later, same, rest⟩ := exists_same_control id hidden calm control
  have first : Reaches id hidden reduced middle [moveThere]
      (if moveThere.isStep then [moveThere] else []) _ := .single movedThere
  have both := first.trans rest
  rw [List.append_nil, List.append_nil] at both
  exact ⟨_, later, both,
    abreast.of_move? matching.calm coherent.distinct apart moved same⟩

/-- A move that is made for the document. -/
theorem keepsUp_own (own : move.isOwn id = true)
    (shown : ∀ entry, session.registry.find? id = some entry → hidden entry.source = false)
    (quiet : ∀ source, move = .create source → source.isQuiet = true)
    (moved : session.move? move = some after) :
    KeepsUp id hidden reduced after (if move.isStep then [move] else [])
      (session.deed? id hidden move).toList := by
  have apart := Move.isActing_of_isOwn own
  have idle (waits : move.isEnding = false) : session.isIdle = true :=
    isIdle_of_move? waits apart moved
  have made := matching.move?_same (sees_of_coherent coherent shown) own
    (fun waits => (abreast.idle_there (idle waits)).trans (idle waits).symm) quiet
    (free_of_move? moved)
  rw [moved] at made
  obtain ⟨middle, movedThere, matchingMiddle⟩ := exists_of_rel made
  have given : session.deed? id hidden move = reduced.deed? id hidden move := by
    rw [deed?_of_isOwn own, deed?_of_isOwn own]
  rw [given]
  exact keepsUp_of_move? abreast matching coherent moved apart movedThere apart
    matchingMiddle.calmThere

/-- A move that is made for another document, unless the host takes the step in both
sessions. -/
theorem keepsUp_foreign (foreign : move.isForeign id = true)
    (moved : session.move? move = some after) (marked : Bool) :
    KeepsUp id hidden reduced after (move.kept marked) [] := by
  have apart := Move.isActing_of_isForeign foreign
  unfold Move.kept
  split
  case isTrue stepped =>
      cases move with
      | highlightNow other =>
          have idle := abreast.idle_there (isIdle_of_move? rfl apart moved)
          have movedThere : reduced.move? (.highlightNow other) =
              some (reduced.highlightNow other) := if_pos idle
          have untouched := untouched_move? matching.calmThere foreign movedThere
          have keepsUp := keepsUp_of_move? abreast matching coherent moved apart movedThere
            apart (untouched.calm matching.calmThere)
          rwa [deed?_of_isForeign foreign] at keepsUp
      | create | tick | act => cases foreign
      | proceed | tell | wake | poll | complete | fail => cases stepped
  case isFalse =>
      exact ⟨[], reduced, .refl reduced,
        abreast.of_move? matching.calm coherent.distinct apart moved rfl⟩

/-- The host is told that the document was found closed. -/
theorem keepsUp_tell {notice : Notice} (own : notice.id = id)
    (moved : session.move? (.tell notice) = some after) :
    KeepsUp id hidden reduced after [] [.tell] := by
  subst own
  obtain ⟨⟨idle, member⟩, _⟩ := Option.ite_none_right_eq_some.mp moved
  have pending : 0 < reduced.notices.countP (·.id = notice.id) := by
    rw [matching.notices]
    exact List.countP_pos_iff.mpr ⟨notice, member, decide_eq_true rfl⟩
  obtain ⟨other, memberThere, same⟩ := List.countP_pos_iff.mp pending
  have movedThere : reduced.move? (.tell other) = some ({ reduced with
      notices := reduced.notices.erase other }.note (.closed other.id)) :=
    if_pos ⟨abreast.idle_there idle, memberThere⟩
  have calm := matching.calmThere
  have given : reduced.deed? notice.id hidden (.tell other) = some .tell :=
    if_pos (of_decide_eq_true same)
  have keepsUp := keepsUp_of_move? abreast matching coherent moved rfl movedThere rfl
    ⟨calm.held, calm.quiet, calm.sound, calm.numbered⟩
  rwa [given] at keepsUp

end OneMove

/-! ### An action in progress -/

/-- An action that was answered is level with one that has come to its end. -/
theorem Abreast.of_answer {answer : Answer} {frames : List Frame}
    (idle : later.control = .idle) (answers : after.control = .answer answer frames)
    (free : id ∉ (Debts.ofFrames frames).edits) : Abreast id hidden after later := by
  refine .level idle (by rwa [debts_of_answer answers]) ?_
  intro action frames performs
  cases answers.symm.trans performs

theorem Abreast.of_perform {action : Action} (calm : session.Calm)
    (settled : ∀ settings, action ≠ .reconfigure settings) (idle : later.control = .idle) :
    Abreast id hidden (session.perform action [.host]) later := by
  obtain ⟨answer, control | control⟩ :=
    perform_control calm.quiet calm.held settled [.host]
  · exact .of_answer idle control List.not_mem_nil
  · exact .of_answer idle control List.not_mem_nil

/-- An action that is carried out in both sessions. -/
theorem keepsUp_perform {action : Action}
    (matching : Matches id hidden false true session reduced)
    (here : session.control = .perform action [.host])
    (there : reduced.control = .perform action [.host]) (keeps : action ≠ .dropScheduler)
    (settled : ∀ settings, action ≠ .reconfigure settings) :
    KeepsUp id hidden reduced (session.perform action [.host]) []
      (session.deed? id hidden .proceed).toList := by
  have calm := calm_perform matching.calmThere keeps settled [.host]
  have proceeds : reduced.proceed = reduced.perform action [.host] := by
    rw [proceed, there]
  have first : Reaches id hidden reduced reduced.proceed [.proceed] []
      (reduced.deed? id hidden .proceed).toList :=
    .single (move?_proceed (by simp [there]))
  rw [deed?_perform here settled, ← deed?_perform there settled]
  rw [proceeds] at first
  have finish : ∃ piece later, later.control = .idle ∧
      Reaches id hidden (reduced.perform action [.host]) later piece [] [] := by
    obtain ⟨answer, control | control⟩ :=
      perform_control matching.quiet.2 matching.held.2 settled [.host]
    · exact exists_idle id hidden calm control rfl
    · exact exists_idle id hidden calm control rfl
  obtain ⟨piece, later, idle, rest⟩ := finish
  have both := first.trans rest
  rw [List.append_nil, List.append_nil] at both
  exact ⟨_, later, both, .of_perform matching.calm settled idle⟩

/-- Settings with a fault are refused in both sessions. -/
theorem keepsUp_refused {settings : Settings} {error : HighlightError} (calm : reduced.Calm)
    (there : reduced.control = .perform (.reconfigure settings) [.host])
    (refused : settings.validate = .error error) :
    KeepsUp id hidden reduced
      (session.reconfigure settings session.registry.ids [.host]) []
      (session.adoption? id settings).toList := by
  let answered := reduced.beginCall.answering (.failure error) [.call, .host]
  have none : ∀ session : Session, session.adoption? id settings = none := by
    intro session
    rw [adoption?, refused]
  obtain ⟨proceeds, given⟩ :
      reduced.proceed = reduced.reconfigure settings reduced.registry.ids [.host] ∧
        reduced.deed? id hidden .proceed = reduced.adoption? id settings :=
    proceed_reconfigure calm.held there
  have first : Reaches id hidden reduced reduced.proceed [.proceed] []
      (reduced.deed? id hidden .proceed).toList :=
    .single (move?_proceed (by simp [there]))
  have calmAnswered : answered.Calm := ⟨calm.held, calm.quiet, calm.sound, calm.numbered⟩
  obtain ⟨piece, later, idle, rest⟩ := exists_idle id hidden calmAnswered rfl rfl
  rw [given, none, proceeds, reconfigure, refused] at first
  rw [none, reconfigure, refused]
  exact ⟨_, later, first.trans rest, .of_answer idle rfl List.not_mem_nil⟩

/-- New settings are taken over in both sessions, unless the document has to wait for its
turn. -/
theorem keepsUp_accepted {settings : Settings}
    (matching : Matches id hidden false true session reduced)
    (there : reduced.control = .perform (.reconfigure settings) [.host])
    (accepted : settings.validate = .ok ()) :
    KeepsUp id hidden reduced
      (session.reconfigure settings session.registry.ids [.host]) []
      (session.adoption? id settings).toList := by
  obtain ⟨answer, left, control, _, edits, _, adopted⟩ :=
    reconfigure_control matching.calm accepted
  obtain ⟨piece, later, idle, reaches⟩ : ∃ piece later, later.control = .idle ∧
      Reaches id hidden reduced later piece []
        [if id ∈ reduced.registry.ids then .rearm settings else .adopt settings] :=
    exists_reconfigured matching.calmThere there accepted
  simp only [matching.mem_ids_iff] at reaches
  have distinct : session.registry.ids.Nodup := matching.calm.numbered.1
  rw [adoption?, accepted]
  dsimp only
  split
  case isTrue next =>
      obtain ⟨rest, same⟩ := List.head?_eq_some_iff.mp next
      rw [same] at distinct
      rw [if_pos (by simp [same])] at reaches
      refine ⟨piece, later, reaches, .of_answer idle control ?_⟩
      rw [edits, same]
      exact (List.nodup_cons.mp distinct).1
  case isFalse others =>
      split
      case isTrue member =>
          -- The settings are not taken over here before the document is edited there.
          refine ⟨[], reduced, .refl reduced, .behind answer left control ?_ ?_ ?_ ?_ ?_⟩
          · rw [debts_of_answer control, edits]
            exact mem_tail_of_mem member others
          · rw [debts_of_answer control, edits]
            exact distinct.tail
          · exact (mem_ids_reconfigure matching.calm accepted others).mpr member
          · rw [adopted, accepted]
          · rw [adopted, there]
      case isFalse absent =>
          rw [if_neg absent] at reaches
          refine ⟨piece, later, reaches, .of_answer idle control ?_⟩
          rw [edits]
          exact fun member => absent (List.mem_of_mem_tail member)

/-- The document is edited when its turn comes, or waits on. -/
theorem keepsUp_behind {answer : Answer} {frames : List Frame}
    (matching : Matches id hidden false false session reduced)
    (plain : session.control.isPlain = true)
    (here : session.control = .answer answer frames) (owes : id ∈ session.debts.edits)
    (once : session.debts.edits.Nodup) (known : id ∈ session.registry.ids)
    (accepted : session.settings.validate = .ok ())
    (there : reduced.control = .perform (.reconfigure session.settings) [.host]) :
    KeepsUp id hidden reduced session.proceed [] (session.deed? id hidden .proceed).toList := by
  rw [debts_of_answer here] at owes once
  rw [here, Control.isPlain] at plain
  cases frames with
  | nil => cases owes
  | cons frame frames =>
      rw [List.all_cons, Bool.and_eq_true] at plain
      obtain ⟨answerAfter, left, control, _, edits, _⟩ :=
        resume_control matching.quiet.1 plain.1 answer frames
      rw [proceed, deed?, here]
      dsimp only
      rw [edits] at owes once
      split
      case isTrue next =>
          obtain ⟨piece, later, idle, reaches⟩ :
              ∃ piece later, later.control = .idle ∧ Reaches id hidden reduced later piece []
                [if id ∈ reduced.registry.ids then .rearm session.settings
                  else .adopt session.settings] :=
            exists_reconfigured matching.calmThere there accepted
          rw [if_pos (matching.mem_ids_iff.mpr known)] at reaches
          refine ⟨piece, later, reaches, .of_answer idle control ?_⟩
          rw [next, Option.toList_some, List.singleton_append] at once
          exact (List.nodup_cons.mp once).1
      case isFalse others =>
          have untouched : Untouched id session (session.resume answer frame frames) :=
            untouched_resume matching.calm plain.1 others
          refine ⟨[], reduced, .refl reduced, .behind answerAfter _ control ?_ ?_ ?_ ?_ ?_⟩
          · rw [debts_of_answer control]
            exact (List.mem_append.mp owes).resolve_left (by simpa using others)
          · rw [debts_of_answer control]
            exact (List.nodup_append.mp once).2.1
          · exact untouched.mem_ids_iff.mpr known
          · rw [untouched.settings, accepted]
          · rw [untouched.settings, there]

/-- What the other session carries out by itself goes on. -/
theorem level_proceed (calm : session.Calm) (plain : session.control.isPlain = true)
    (busy : session.control ≠ .idle) (idle : reduced.control = .idle)
    (free : id ∉ session.debts.edits)
    (spared : ∀ action frames, session.control = .perform action frames →
      action.spares id hidden = true) :
    session.deed? id hidden .proceed = none ∧ Abreast id hidden session.proceed reduced := by
  cases waiting : session.control with
  | idle => exact absurd waiting busy
  | perform action frames =>
      rw [waiting] at plain
      obtain rfl : frames = [.host] := of_decide_eq_true plain
      have spares := spared action [.host] waiting
      have settled : ∀ settings, action ≠ .reconfigure settings := by
        rintro settings rfl
        cases spares
      rw [deed?_perform waiting settled, if_pos spares, proceed, waiting]
      exact ⟨rfl, .of_perform calm settled idle⟩
  | answer answer frames =>
      rw [waiting, Control.isPlain] at plain
      rw [debts_of_answer waiting] at free
      rw [deed?, proceed, waiting]
      cases frames with
      | nil =>
          refine ⟨rfl, .level idle List.not_mem_nil ?_⟩
          rintro _ _ ⟨⟩
      | cons frame frames =>
          rw [List.all_cons, Bool.and_eq_true] at plain
          obtain ⟨answerAfter, left, control, _, edits, _⟩ :=
            resume_control calm.quiet plain.1 answer frames
          rw [edits, List.mem_append, not_or, Option.mem_toList] at free
          exact ⟨if_neg free.1, .of_answer idle control free.2⟩

/-- What is being carried out goes on. -/
theorem keepsUp_proceed (abreast : Abreast id hidden session reduced)
    (matching : Matches id hidden false (decide (id ∉ session.debts.edits)) session reduced)
    (plain : session.control.isPlain = true) (busy : session.control ≠ .idle)
    (keeps : session.deed? id hidden .proceed ≠ some (.act .dropScheduler)) :
    KeepsUp id hidden reduced session.proceed [] (session.deed? id hidden .proceed).toList := by
  cases abreast with
  | level idle free spared =>
      obtain ⟨given, abreast⟩ := level_proceed matching.calm plain busy idle free spared
      rw [given]
      exact ⟨[], reduced, .refl reduced, abreast⟩
  | about action here there =>
      have settledEdits : Matches id hidden false true session reduced := by
        have free : id ∉ session.debts.edits := by
          rw [debts_of_perform here]
          exact List.not_mem_nil
        simpa [free] using matching
      by_cases settled : ∀ settings, action ≠ .reconfigure settings
      · rw [proceed, here]
        refine keepsUp_perform settledEdits here there ?_ settled
        rintro rfl
        exact keeps (deed?_perform here settled)
      · obtain ⟨settings, rfl⟩ := not_forall_not.mp settled
        obtain ⟨proceeds, given⟩ :
            session.proceed = session.reconfigure settings session.registry.ids [.host] ∧
              session.deed? id hidden .proceed = session.adoption? id settings :=
          proceed_reconfigure matching.held.1 here
        rw [proceeds, given]
        cases valid : settings.validate with
        | error error => exact keepsUp_refused matching.calmThere there valid
        | ok _ => exact keepsUp_accepted settledEdits there valid
  | behind answer frames here owes once known accepted there =>
      exact keepsUp_behind (matching.relax Bool.noConfusion) plain here owes once known accepted there

/-- The host begins an action in both sessions, or in one of them if it spares the
document. -/
theorem keepsUp_act {action : Action} {marked : Bool}
    (abreast : Abreast id hidden session reduced) (idle : session.isIdle = true)
    (spares : marked = false → action.spares id hidden = true) :
    KeepsUp id hidden reduced (session.act action) ((Move.act action).kept marked) [] := by
  cases marked with
  | true =>
      have movedThere : reduced.move? (.act action) = some (reduced.act action) :=
        if_pos (abreast.idle_there idle)
      exact ⟨[.act action], reduced.act action, .single movedThere, .about action rfl rfl⟩
  | false =>
      refine ⟨[], reduced, .refl reduced, .level ?_ List.not_mem_nil ?_⟩
      · exact isIdle_iff.mp (abreast.idle_there idle)
      · rintro _ _ ⟨⟩
        exact spares rfl

/-- Whatever move is made, the session in which steps are left out can keep up. -/
theorem keepsUp_move? {move : Move} {marked : Bool}
    (abreast : Abreast id hidden session reduced)
    (matching : Matches id hidden false (decide (id ∉ session.debts.edits)) session reduced)
    (plain : session.control.isPlain = true) (coherent : Coherent session.debts session)
    (shown : ∀ entry, session.registry.find? id = some entry → hidden entry.source = false)
    (keeps : ∀ deed ∈ session.deed? id hidden move, deed.keepsCalm = true)
    (quiet : ∀ source, move = .create source → source.isQuiet = true)
    (spares : marked = false → move.isStep = true → move.spares id hidden = true)
    (moved : session.move? move = some after) :
    KeepsUp id hidden reduced after (move.kept marked)
      (session.deed? id hidden move).toList := by
  obtain own | foreign | rfl | ⟨action, rfl⟩ | ⟨notice, rfl, rfl⟩ := move.isOwn_or id
  · have both : move.kept marked = if move.isStep then [move] else [] := by
      cases stepped : move.isStep with
      | false => simp [Move.kept, stepped]
      | true =>
          have isMarked : marked ≠ false := fun unmarked =>
            Bool.false_ne_true ((move.spares_of_isOwn own).symm.trans (spares unmarked stepped))
          simp [Move.kept, stepped, isMarked]
    rw [both]
    exact keepsUp_own abreast matching coherent own shown quiet moved
  · rw [deed?_of_isForeign foreign]
    exact keepsUp_foreign abreast matching coherent foreign moved marked
  · obtain ⟨busy, rfl⟩ := proceed_of_move moved
    refine keepsUp_proceed abreast matching plain busy ?_
    intro given
    cases keeps _ given
  · obtain ⟨idle, made⟩ := Option.ite_none_right_eq_some.mp moved
    cases made
    exact keepsUp_act abreast idle fun unmarked => spares unmarked rfl
  · rw [deed?, if_pos rfl]
    exact keepsUp_tell abreast matching coherent rfl moved

end Session

end LogTint
