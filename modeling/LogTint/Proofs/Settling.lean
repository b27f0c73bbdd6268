import LogTint.Proofs.Outlook

/-!
# How sessions come to rest

Each move keeps the outlook of every document and uses up some of the work.  So
a session that is given as many moves as it has work comes to rest, and then the
strand of every document is its outlook.
-/

namespace LogTint

/-- Nothing is left to carry out but to give an answer that was given already. -/
def Control.IsBare (answer : Answer) (control : Control) : Prop :=
  control = .idle ∨ control = .answer .nothing [] ∨
    control = .answer .nothing [.host] ∧ answer = .nothing

namespace Session

variable {documents : DocumentId → Option Tracked} {calls : Nat}
  {session final : Session} {id : DocumentId} {tracked : Tracked} {work : Work}

/-- What the frames still have to do. -/
def controlLoad (session : Session) : Nat :=
  match session.control with
  | .idle => 0
  | .perform _ frames => session.actionWorkload + (frames.map Frame.workload).sum
  | .answer _ frames => 1 + (frames.map Frame.workload).sum

/-- What the runs still have to do. -/
def runLoad (session : Session) : Nat := (session.runs.map (·.phase.workload)).sum

/-- Documents that do not act leave only frames, runs and notices to go on. -/
theorem workload_of_quiet (quiet : ∀ source ∈ session.sources, source.isQuiet = true)
    (plain : ∀ frame ∈ session.control.frames, frame.isPlain = true) :
    session.workload = session.controlLoad + session.runLoad + session.notices.length := by
  have noActions : session.pendingActions = 0 := by
    have sums : session.pendingActions = (session.sources.map Source.pendingActions).sum +
        (session.control.frames.map Frame.pendingActions).sum := rfl
    rw [sums, Nat.add_eq_zero_iff, List.sum_eq_zero_iff_forall_eq_nat,
      List.sum_eq_zero_iff_forall_eq_nat]
    constructor
    · intro count member
      obtain ⟨source, sourceMember, rfl⟩ := List.mem_map.mp member
      exact of_decide_eq_true (quiet source sourceMember)
    · intro count member
      obtain ⟨frame, frameMember, rfl⟩ := List.mem_map.mp member
      have isPlain := plain frame frameMember
      cases frame <;> simp_all [Frame.isPlain, Frame.pendingActions]
  have same : session.workload = session.pendingActions * session.actionWorkload +
      session.controlLoad + session.runLoad + session.notices.length := rfl
  rw [same, noActions, Nat.zero_mul, Nat.zero_add]

theorem Orderly.workload_eq (orderly : Orderly documents session) :
    session.workload = session.controlLoad + session.runLoad + session.notices.length :=
  workload_of_quiet orderly.shows.quiet orderly.plain

/-- A run that sleeps makes no work. -/
theorem Shows.load_of_asleep (shows : session.Shows documents calls)
    (asleep : Asleep documents) {runs : List Run} (subset : runs ⊆ session.runs) :
    (runs.map (·.phase.workload)).sum = 0 := by
  rw [List.sum_eq_zero_iff_forall_eq_nat]
  intro load member
  obtain ⟨run, runMember, rfl⟩ := List.mem_map.mp member
  have sleeps := shows.isSleeping_of_asleep asleep (subset runMember)
  cases phase : run.phase <;> simp_all [Phase.isSleeping, Phase.workload]

/-- An edit while nothing is under way but timers. -/
theorem Shows.orderly_beginEdit (next : DocumentId) (frames : List Frame)
    (shows : session.Shows documents (frames.countP (· = Frame.call)))
    (asleep : Asleep documents) (held : session.held = true)
    (noticed : ∀ notice ∈ session.notices,
      notice.ahead = [] ∧ documents notice.id = none)
    (plain : ∀ frame ∈ frames, frame.isPlain = true)
    (distinct : (next :: (Debts.ofFrames frames).edits).Nodup) :
    ∃ after,
      Orderly after (session.beginEdit next frames) ∧
      (session.beginEdit next frames).workload ≤
        3 + (frames.map Frame.workload).sum + session.notices.length ∧
      (∀ other, (session.beginEdit next frames).outlook after other =
        (if other ∈ next :: (Debts.ofFrames frames).edits then
            (session.strand documents other).edit.2
          else session.strand documents other).finish.toldClosed
            (session.notices.countP (·.id = other))) ∧
      Asleep after ∧
      (session.beginEdit next frames).spoken =
        if .host ∈ frames then (session.strand documents next).edit.1
        else session.answer := by
  obtain ⟨fresh, distinct⟩ := List.nodup_cons.mp distinct
  obtain ⟨edited, begun, turns, showsAfter, answer, notices⟩ :=
    shows.beginEdit asleep held next frames
  rw [begun]
  have asleepAfter : Asleep
      (Function.update documents next (session.strand documents next).edit.2.tracked?) := by
    intro other tracked known
    by_cases here : other = next
    · rw [here, Function.update_self] at known
      exact Strand.edit_dormant (asleep next) tracked known
    · rw [Function.update_of_ne here] at known
      exact asleep other tracked known
  have editsAfter : (edited.answering (session.strand documents next).edit.1
      (.call :: frames)).debts.edits = (Debts.ofFrames frames).edits := rfl
  have after : Orderly
      (Function.update documents next (session.strand documents next).edit.2.tracked?)
      (edited.answering (session.strand documents next).edit.1 (.call :: frames)) :=
    { shows := by
        have same : (edited.answering (session.strand documents next).edit.1
            (.call :: frames)).control.frames.countP (· = Frame.call) =
              frames.countP (· = Frame.call) + 1 := by
          simp [Session.answering, Control.frames]
        rw [same]
        exact showsAfter.aside _ _ _ _ _
      plain := by
        intro frame member
        simp only [Session.answering, Control.frames, List.mem_cons] at member
        rcases member with rfl | member
        · rfl
        · exact plain frame member
      answering := by simp [Session.answering]
      notices := by
        intro notice member
        rw [show (edited.answering _ _).notices = edited.notices from rfl, notices] at member
        rcases List.mem_append.mp member with earlier | new
        · obtain ⟨ahead, untracked⟩ := noticed notice earlier
          refine ⟨ahead, ?_⟩
          by_cases here : notice.id = next
          · rw [here, Function.update_self]
            rw [here] at untracked
            exact Strand.edit_untracked untracked
          · rw [Function.update_of_ne here]
            exact untracked
        · split at new
          · rename_i closes
            rw [List.mem_singleton.mp new, Function.update_self]
            simp only [Bool.and_eq_true, Option.isNone_iff_eq_none] at closes
            exact ⟨rfl, closes.2⟩
          · cases new
      distinct := editsAfter ▸ distinct
      editing := fun _ => ⟨asleepAfter, turns.held.trans held⟩ }
  refine ⟨_, after, ?_, fun other => ?_, asleepAfter, ?_⟩
  · rw [after.workload_eq, runLoad,
      after.shows.load_of_asleep asleepAfter (List.Subset.refl _)]
    have more : (edited.answering (session.strand documents next).edit.1
        (.call :: frames)).notices.length ≤ session.notices.length + 1 := by
      rw [show (edited.answering _ _).notices = edited.notices from rfl, notices,
        List.length_append]
      split <;> simp
    simp only [controlLoad, Session.answering, List.map_cons, List.sum_cons,
      Frame.workload] at more ⊢
    omega
  · have strands := turns.strand (by simp) documents other
    rw [outlook, editsAfter,
      show (edited.answering (session.strand documents next).edit.1 _).strand _ other =
        edited.strand _ other from rfl, strands,
      show (edited.answering _ _).notices = edited.notices from rfl, notices,
      List.countP_append]
    by_cases here : other = next
    · subst here
      rw [if_neg fresh, if_pos rfl, if_pos List.mem_cons_self]
      have heard : (if (documents other).isSome &&
            (session.strand documents other).edit.2.tracked?.isNone
          then [(⟨other, []⟩ : Notice)] else []).countP (·.id = other) =
          if (documents other).isSome &&
            (session.strand documents other).edit.2.tracked?.isNone then 1 else 0 := by
        split <;> simp
      rw [heard, Nat.add_comm, ← Strand.toldClosed_toldClosed,
        Strand.finish_of_dormant (Strand.edit_dormant (asleep other)),
        Strand.finish_of_dormant (by exact Strand.edit_dormant (asleep other))]
      simp only [List.map_nil, List.append_nil]
      exact congrArg (fun strand => strand.toldClosed (session.notices.countP (·.id = other)))
        (Strand.edit_eq (session.strand documents other)).symm
    · have member : other ∈ next :: (Debts.ofFrames frames).edits ↔
          other ∈ (Debts.ofFrames frames).edits := by simp [here]
      have unheard : (if (documents next).isSome &&
            (session.strand documents next).edit.2.tracked?.isNone
          then [(⟨next, []⟩ : Notice)] else []).countP (·.id = other) = 0 := by
        split <;> simp [Ne.symm here]
      rw [if_neg here, unheard, Nat.add_zero]
      simp only [member]
  · simp [spoken, Session.answering, answer]

namespace Orderly

/-- A frame goes, and nothing else changes than the answer and the calls. -/
theorem advance_frame {control : Control} {answer : Answer} {calls : Nat}
    (orderly : Orderly documents session)
    (shows : { session with control, answer, calls }.Shows documents
      (control.frames.countP (· = Frame.call)))
    (plain : ∀ frame ∈ control.frames, frame ∈ session.control.frames)
    (answering : ∀ action frames, control ≠ .perform action frames)
    (edits : (Debts.ofFrames control.frames).edits = session.debts.edits)
    (load : { session with control, answer, calls }.controlLoad < session.controlLoad)
    (spoken : (∀ frame ∈ session.control.frames, frame.isSingle = true) →
      { session with control, answer, calls }.spoken = session.spoken) :
    Advances documents documents session { session with control, answer, calls } := by
  have after : Orderly documents { session with control, answer, calls } :=
    { shows
      plain := fun frame member => orderly.plain frame (plain frame member)
      answering
      notices := orderly.notices
      distinct := by
        rw [show debts { session with control, answer, calls } =
          Debts.ofFrames control.frames from rfl, edits]
        exact orderly.distinct
      editing := by
        rw [show debts { session with control, answer, calls } =
          Debts.ofFrames control.frames from rfl, edits]
        exact orderly.editing }
  refine ⟨after, ?_, fun id => ?_, fun id single => ?_⟩
  · rw [after.workload_eq, orderly.workload_eq]
    exact Nat.add_lt_add_right (Nat.add_lt_add_right load _) _
  · rw [outlook, outlook, show debts { session with control, answer, calls } =
      Debts.ofFrames control.frames from rfl, edits]
    rfl
  · refine ⟨⟨fun frame member => single.1 frame (plain frame member), single.2⟩, ?_⟩
    rw [prospect, prospect, spoken single.1]
    rfl

theorem advance_idle {answer : Answer} (orderly : Orderly documents session)
    (control : session.control = .answer answer []) :
    Advances documents documents session { session with control := .idle } := by
  have shows := orderly.shows
  rw [control] at shows
  refine orderly.advance_frame (shows.aside _ _ _ _ _) (by simp [Control.frames])
    (by simp) ?_ ?_ ?_
  · rw [debts, control]
    rfl
  · simp [controlLoad, control]
  · intro _
    simp [spoken, control]

theorem advance_host {answer : Answer} {frames : List Frame}
    (orderly : Orderly documents session)
    (control : session.control = .answer answer (.host :: frames)) :
    Advances documents documents session
      ({ session with answer }.answering answer frames) := by
  have shows := orderly.shows
  rw [control] at shows
  refine orderly.advance_frame ?_ ?_ (by simp) ?_ ?_ ?_
  · have same : (Control.answer answer (.host :: frames)).frames.countP (· = Frame.call) =
        frames.countP (· = Frame.call) := by simp [Control.frames]
    rw [same] at shows
    exact shows.aside _ _ _ _ _
  · simp only [control, Control.frames]
    exact fun frame member => List.mem_cons_of_mem _ member
  · rw [debts, control]
    rfl
  · simp [controlLoad, control, Frame.workload]
  · intro _
    simp [spoken, control]

theorem advance_call {answer : Answer} {frames : List Frame}
    (orderly : Orderly documents session)
    (control : session.control = .answer answer (.call :: frames)) :
    Advances documents documents session (session.endCall.answering answer frames) := by
  have shows := orderly.shows
  rw [control] at shows
  rw [endCall_of_dropped shows.dropped]
  refine orderly.advance_frame ?_ ?_ (by simp) ?_ ?_ ?_
  · have same : (Control.answer answer (.call :: frames)).frames.countP (· = Frame.call) =
        frames.countP (· = Frame.call) + 1 := by simp [Control.frames]
    rw [same] at shows
    refine { shows with calls := ?_ }
    dsimp only [Control.frames]
    rw [shows.calls]
    omega
  · simp only [control, Control.frames]
    exact fun frame member => List.mem_cons_of_mem _ member
  · rw [debts, control]
    rfl
  · simp [controlLoad, control, Frame.workload]
  · intro _
    simp [spoken, control]

theorem advance_rearm_nil {answer : Answer} {frames : List Frame} {id : DocumentId}
    {outcomes : List (DocumentId × EditOutcome)} (orderly : Orderly documents session)
    (control : session.control = .answer answer (.rearm id [] outcomes :: frames))
    (result : List (DocumentId × EditOutcome)) :
    Advances documents documents session
      (session.answering (.outcomes result) frames) := by
  have shows := orderly.shows
  rw [control] at shows
  refine orderly.advance_frame ?_ ?_ (by simp) ?_ ?_ ?_
  · have same : (Control.answer answer (.rearm id [] outcomes :: frames)).frames.countP
        (· = Frame.call) = frames.countP (· = Frame.call) := by simp [Control.frames]
    rw [same] at shows
    exact shows.aside _ _ _ _ _
  · simp only [control, Control.frames]
    exact fun frame member => List.mem_cons_of_mem _ member
  · rw [debts, control]
    rfl
  · simp [controlLoad, control, Frame.workload]
  · intro single
    have isSingle := single (.rearm id [] outcomes) (by simp [control, Control.frames])
    cases isSingle

/-- One more document is edited after a change of settings. -/
theorem advance_rearm_cons {answer : Answer} {frames : List Frame} {id next : DocumentId}
    {later : List DocumentId} {outcomes : List (DocumentId × EditOutcome)}
    (orderly : Orderly documents session)
    (control : session.control =
      .answer answer (.rearm id (next :: later) outcomes :: frames))
    (result : List (DocumentId × EditOutcome)) :
    ∃ after, Advances documents after session
      (session.beginEdit next (.rearm next later result :: frames)) := by
  have edits : session.debts.edits = next :: (later ++ (Debts.ofFrames frames).edits) := by
    rw [debts, control]
    rfl
  obtain ⟨asleep, held⟩ := orderly.editing (by simp [edits])
  have shows := orderly.shows
  rw [show session.control.frames.countP (· = Frame.call) =
    (Frame.rearm next later result :: frames).countP (· = Frame.call) by
      simp [control, Control.frames]] at shows
  have plain : ∀ frame ∈ Frame.rearm next later result :: frames, frame.isPlain = true := by
    intro frame member
    rcases List.mem_cons.mp member with rfl | member
    · rfl
    · exact orderly.plain frame (by simp [control, Control.frames, member])
  obtain ⟨after, orderlyAfter, work, outlooks, _⟩ :=
    Shows.orderly_beginEdit next _ shows asleep held orderly.notices plain
      (edits ▸ orderly.distinct)
  refine ⟨after, orderlyAfter, ?_, fun other => ?_, fun other single => ?_⟩
  · rw [orderly.workload_eq, controlLoad, control]
    simp only [List.map_cons, List.sum_cons, Frame.workload, List.length_cons] at work ⊢
    omega
  · rw [outlooks, outlook, edits]
    rfl
  · have isSingle := single.1 (.rearm id (next :: later) outcomes)
      (by simp [control, Control.frames])
    cases isSingle

/-- The host is told of a document that was found closed. -/
theorem advance_tell {notice : Notice} (orderly : Orderly documents session)
    (idle : session.control = .idle) (member : notice ∈ session.notices) :
    Advances documents documents session
      ({ session with notices := session.notices.erase notice }.note
        (.closed notice.id)) := by
  have frames : session.control.frames = [] := by rw [idle]; rfl
  have noDebts : session.debts.edits = [] := by rw [debts, idle]; rfl
  have untracked := (orderly.notices notice member).2
  have after : Orderly documents ({ session with
      notices := session.notices.erase notice }.note (.closed notice.id)) :=
    { shows := orderly.shows.aside _ _ _ _ _
      plain := orderly.plain
      answering := orderly.answering
      notices := fun other otherMember =>
        orderly.notices other (List.mem_of_mem_erase otherMember)
      distinct := orderly.distinct
      editing := orderly.editing }
  have strands : ∀ other, strand ({ session with
      notices := session.notices.erase notice }.note (.closed notice.id)) documents other =
        (session.strand documents other).toldClosed (if other = notice.id then 1 else 0) := by
    intro other
    by_cases here : other = notice.id
    · simp [strand, note, Strand.toldClosed, Event.isAbout, here]
    · simp [strand, note, Strand.toldClosed, Event.isAbout, here, Ne.symm here]
  refine ⟨after, ?_, fun other => ?_, fun other single => ⟨⟨single.1, ?_⟩, ?_⟩⟩
  · rw [after.workload_eq, orderly.workload_eq]
    have fewer := List.length_erase_of_mem member
    have some_ := List.length_pos_of_mem member
    show session.controlLoad + session.runLoad + (session.notices.erase notice).length < _
    omega
  · have count : session.notices.countP (·.id = other) =
        (session.notices.erase notice).countP (·.id = other) +
          if other = notice.id then 1 else 0 := by
      rw [(List.perm_cons_erase member).countP_eq, List.countP_cons]
      simp [eq_comm]
    have noDebtsAfter : debts ({ session with
        notices := session.notices.erase notice }.note (.closed notice.id)) =
          session.debts := rfl
    rw [outlook, outlook, noDebtsAfter, noDebts, if_neg List.not_mem_nil,
      if_neg List.not_mem_nil, strands, count]
    by_cases here : other = notice.id
    · have rests : ∀ tracked, (session.strand documents other).tracked? = some tracked →
          tracked.Dormant := by
        intro tracked known
        rw [show (session.strand documents other).tracked? = documents other from rfl, here,
          untracked] at known
        cases known
      rw [Strand.finish_of_dormant rests, Strand.finish_of_dormant (by exact rests),
        Strand.toldClosed_toldClosed, Nat.add_comm]
      rfl
    · simp only [if_neg here, Strand.toldClosed_zero, Nat.add_zero]
      rfl
  · intro foreign different
    rw [strands, Strand.awaited?_toldClosed]
    exact single.2 foreign different
  · rw [prospect, prospect, strands, Strand.awaited?_toldClosed]
    rfl

/-- A run goes on while nothing is being carried out. -/
theorem advance_turn {new? : Option Tracked} {news : List Event} {control : Control}
    (orderly : Orderly documents session) (idle : session.control = .idle)
    (known : documents id = some tracked) (underWay : tracked.work? = some work)
    (turns : session.Turns id new? news final)
    (shows : final.Shows (Function.update documents id new?) 0)
    (notices : final.notices = session.notices)
    (bare : control.IsBare final.answer)
    (load : { final with control }.controlLoad +
      ((new?.bind (Tracked.run? id)).toList.map (·.phase.workload)).sum <
        work.phase.workload)
    (about : ∀ event ∈ news, ∀ other, event.isAbout other = decide (id = other))
    (finish : (final.strand (Function.update documents id new?) id).finish =
      (session.strand documents id).finish)
    (own : (final.strand (Function.update documents id new?) id).awaited?.getD
        final.answer = (session.strand documents id).awaited?.getD session.answer)
    (foreign : (session.strand documents id).awaited? = none →
      final.answer = session.answer ∧
        (final.strand (Function.update documents id new?) id).awaited? = none) :
    Advances documents (Function.update documents id new?) session
      { final with control } := by
  have noDebts : session.debts.edits = [] := by rw [debts, idle]; rfl
  have noDebtsAfter : debts { final with control } = ⟨[], [], []⟩ := by
    rcases bare with rfl | rfl | ⟨rfl, _⟩ <;> rfl
  have onlyHost : ∀ frame ∈ control.frames, frame = .host := by
    rcases bare with rfl | rfl | ⟨rfl, _⟩ <;> simp [Control.frames]
  have noCalls : control.frames.countP (· = Frame.call) = 0 := by
    rw [List.countP_eq_zero]
    intro frame member
    simp [onlyHost frame member]
  have strands : ∀ other, strand { final with control } (Function.update documents id new?)
      other = final.strand (Function.update documents id new?) other := fun _ => rfl
  have foreignStrands : ∀ other, other ≠ id →
      final.strand (Function.update documents id new?) other =
        session.strand documents other := by
    intro other different
    rw [turns.strand about, if_neg different]
  have spokenAfter : spoken { final with control } = final.answer := by
    rcases bare with rfl | rfl | ⟨rfl, silent⟩
    · rfl
    · rfl
    · simp [spoken, silent]
  have spokenBefore : session.spoken = session.answer := by
    rw [spoken, idle]
  have after : Orderly (Function.update documents id new?) { final with control } :=
    { shows := by
        rw [show Session.control { final with control } = control from rfl, noCalls]
        exact shows.aside _ _ _ _ _
      plain := by
        intro frame member
        rw [onlyHost frame member]
        rfl
      answering := by
        rcases bare with rfl | rfl | ⟨rfl, _⟩ <;> simp
      notices := by
        intro notice member
        obtain ⟨ahead, untracked⟩ := orderly.notices notice (notices ▸ member)
        refine ⟨ahead, ?_⟩
        rw [Function.update_of_ne]
        · exact untracked
        · intro here
          rw [here, known] at untracked
          cases untracked
      distinct := by rw [noDebtsAfter]; exact List.nodup_nil
      editing := by simp [noDebtsAfter] }
  refine ⟨after, ?_, fun other => ?_, fun other single => ?_⟩
  · rw [after.workload_eq, orderly.workload_eq]
    have before := ((orderly.shows.perm_others id).map (·.phase.workload)).sum_nat
    have later := (turns.runs.map (·.phase.workload)).sum_nat
    rw [List.map_append, List.sum_append] at before later
    rw [Shows.own_runs known underWay, List.map_cons, List.sum_cons, List.map_nil,
      List.sum_nil] at before
    have sameNotices : (Session.notices { final with control }).length =
        session.notices.length := congrArg List.length notices
    have runsAfter : runLoad { final with control } =
        (final.runs.map (·.phase.workload)).sum := rfl
    have workPhase : (tracked.runOf id work).phase = work.phase := rfl
    rw [sameNotices, runsAfter, later, runLoad, before, workPhase]
    omega
  · rw [outlook, outlook, noDebtsAfter, noDebts, if_neg List.not_mem_nil,
      if_neg List.not_mem_nil, strands,
      show Session.notices { final with control } = session.notices from notices]
    by_cases here : other = id
    · rw [here, finish]
    · rw [foreignStrands other here]
  · have quiet : other ≠ id → (session.strand documents id).awaited? = none :=
      fun different => single.2 id (Ne.symm different)
    refine ⟨⟨?_, fun foreignId different => ?_⟩, ?_⟩
    · intro frame member
      rw [onlyHost frame member]
      rfl
    · rw [strands]
      by_cases here : foreignId = id
      · rw [here] at different ⊢
        exact (foreign (quiet (Ne.symm different))).2
      · rw [foreignStrands foreignId here]
        exact single.2 foreignId different
    · rw [prospect, prospect, strands, spokenAfter, spokenBefore]
      by_cases here : other = id
      · rw [here]
        exact own
      · rw [foreignStrands other here, (foreign (quiet here)).1]

/-- The run of a document ends. -/
theorem advance_concludes {ending : Ending} {control : Control}
    (orderly : Orderly documents session) (idle : session.control = .idle)
    (known : documents id = some tracked) (underWay : tracked.work? = some work)
    (ends : (session.strand documents id).endingOf? tracked work = some ending)
    (concluded : session.Concludes documents 0 id tracked work.origin ending final)
    (bare : control.IsBare final.answer)
    (load : { final with control }.controlLoad < work.phase.workload) :
    Advances documents (Function.update documents id (ending.leaves tracked)) session
      { final with control } := by
  have about : ∀ event ∈ ending.event id ::
      (if work.origin = .call false then [Event.returned id (ending.answer id)] else []),
      ∀ other, event.isAbout other = decide (id = other) := by
    intro event member other
    rcases List.mem_cons.mp member with rfl | reply
    · cases ending <;> rfl
    · split at reply
      · rw [List.mem_singleton.mp reply]
        rfl
      · cases reply
  have resting : ∀ left, ending.leaves tracked = some left → left.Dormant := by
    intro left isLeft
    cases ending <;> cases isLeft <;> exact tracked.dormant_rested
  have same : final.strand (Function.update documents id (ending.leaves tracked)) id =
      (session.strand documents id).conclude tracked work.origin ending := by
    rw [concluded.turns.strand about, if_pos rfl, Strand.conclude_eq]
    rfl
  have here : (session.strand documents id).tracked? = some tracked := known
  have waits := Strand.awaited?_eq here underWay ends
  have done : (final.strand (Function.update documents id (ending.leaves tracked))
      id).awaited? = none := by
    apply Strand.awaited?_of_dormant
    rw [same, Strand.conclude_eq]
    exact resting
  refine orderly.advance_turn idle known underWay concluded.turns concluded.shows
    concluded.notices bare ?_ about ?_ ?_ ?_
  · have none : (ending.leaves tracked).bind (Tracked.run? id) = none := by
      cases ending <;> rfl
    rw [none]
    exact load
  · rw [same, Strand.finish_eq here underWay ends]
    apply Strand.finish_of_dormant
    rw [Strand.conclude_eq]
    exact resting
  · rw [done, waits, concluded.answer]
    split <;> rfl
  · intro unawaited
    rw [waits] at unawaited
    refine ⟨?_, done⟩
    rw [concluded.answer]
    split at unawaited
    · cases unawaited
    · rename_i other
      exact if_neg other

/-- The run of a document goes on, and is to end as before. -/
theorem advance_resumes {next : Work} {ending : Ending} {control : Control}
    (orderly : Orderly documents session) (idle : session.control = .idle)
    (known : documents id = some tracked) (underWay : tracked.work? = some work)
    (ends : (session.strand documents id).endingOf? tracked work = some ending)
    (resumed : session.Resumes documents 0 id tracked next final)
    (origin : next.origin = work.origin)
    (endsThen : (session.strand documents id).endingOf? tracked next = some ending)
    (bare : control.IsBare final.answer)
    (load : { final with control }.controlLoad + next.phase.workload <
      work.phase.workload) :
    Advances documents (Function.update documents id (some (tracked.during next))) session
      { final with control } := by
  have same : final.strand (Function.update documents id (some (tracked.during next))) id =
      { session.strand documents id with tracked? := some (tracked.during next) } := by
    rw [resumed.turns.strand (by simp), if_pos rfl]
    simp
  have here : (session.strand documents id).tracked? = some tracked := known
  have waits := Strand.awaited?_eq here underWay ends
  have waitsThen : Strand.awaited? { session.strand documents id with
      tracked? := some (tracked.during next) } =
        if next.origin = .call true then some (ending.answer id) else none :=
    Strand.awaited?_eq rfl rfl endsThen
  refine orderly.advance_turn idle known underWay resumed.turns resumed.shows
    resumed.notices bare ?_ (by simp) ?_ ?_ ?_
  · simpa [Tracked.run?, Tracked.during, Tracked.runOf] using load
  · have finishThen : Strand.finish { session.strand documents id with
        tracked? := some (tracked.during next) } =
          Strand.conclude { session.strand documents id with
            tracked? := some (tracked.during next) } (tracked.during next) next.origin
              ending :=
      Strand.finish_eq rfl rfl endsThen
    rw [same, Strand.finish_eq here underWay ends, finishThen, Strand.conclude_eq,
      Strand.conclude_eq, origin]
    cases ending <;> rfl
  · rw [same, waits, waitsThen, origin, resumed.answer]
    rfl
  · intro unawaited
    rw [same, waitsThen, origin]
    rw [waits] at unawaited
    exact ⟨resumed.answer, unawaited⟩

theorem shows_of_idle (orderly : Orderly documents session)
    (idle : session.control = .idle) : session.Shows documents 0 := by
  have shows := orderly.shows
  rw [idle] at shows
  exact shows

/-- A run that was due has asked for the lock of its document. -/
theorem advance_reads {frames : List Frame} (orderly : Orderly documents session)
    (idle : session.control = .idle) (known : documents id = some tracked)
    (underWay : tracked.work? = some work) (due : work.phase = .due)
    (reads : session.Reads documents 0 id tracked work final)
    (last : frames = [] ∨
      frames = [.host] ∧ work.origin ≠ .call true ∧ session.answer = .nothing) :
    ∃ after, Advances documents after session (final.answering .nothing frames) := by
  have ends : (session.strand documents id).endingOf? tracked work =
      some ((session.strand documents id).reading tracked work.config) := by
    rw [Strand.endingOf?, due]
  have bare : final.answer = (if work.origin = .call true then final.answer
      else session.answer) → (Control.answer .nothing frames).IsBare final.answer := by
    intro answer
    rcases last with rfl | ⟨rfl, unawaited, silent⟩
    · exact .inr (.inl rfl)
    · rw [if_neg unawaited, silent] at answer
      exact .inr (.inr ⟨rfl, answer⟩)
  have load : controlLoad { final with control := .answer .nothing frames } ≤ 2 := by
    rcases last with rfl | ⟨rfl, _⟩ <;> simp [controlLoad, Frame.workload]
  have workload : work.phase.workload = 14 := by
    rw [due]
    rfl
  rcases reads with concluded | ⟨text, same, resumed⟩
  · refine ⟨_, orderly.advance_concludes idle known underWay ends concluded (bare ?_)
      (by omega)⟩
    rw [concluded.answer]
    split <;> rfl
  · rw [same] at ends
    have next : (Phase.computing text).workload = 3 := rfl
    refine ⟨_, orderly.advance_resumes idle known underWay ends resumed rfl rfl (bare ?_)
      (by dsimp only at load ⊢; omega)⟩
    rw [resumed.answer, ite_self]

theorem advance_due (orderly : Orderly documents session) (idle : session.control = .idle)
    (known : documents id = some tracked) (underWay : tracked.work? = some work)
    (due : work.phase = .due) :
    ∃ after, Advances documents after session
      (session.requestLock (tracked.runOf id work) []) := by
  obtain ⟨final, requested, reads⟩ :=
    (orderly.shows_of_idle idle).requestLock known underWay due []
  rw [requested]
  exact orderly.advance_reads idle known underWay due reads (.inl rfl)

theorem advance_computed {text : Text} {highlights : Highlights} {lookup : Lookup}
    (orderly : Orderly documents session) (idle : session.control = .idle)
    (known : documents id = some tracked) (underWay : tracked.work? = some work)
    (computed : work.phase = .computed text highlights lookup) (nanoseconds : Nat) :
    ∃ after, Advances documents after session
      (session.conclude (tracked.runOf id work) text highlights lookup nanoseconds) := by
  have ends : (session.strand documents id).endingOf? tracked work =
      some ((session.strand documents id).conclusion tracked text highlights) := by
    rw [Strand.endingOf?, computed]
  have concluded := (orderly.shows_of_idle idle).conclude known underWay computed
    nanoseconds
  have control := (conclude_control session (tracked.runOf id work) text highlights
    lookup nanoseconds).trans idle
  have advances := orderly.advance_concludes idle known underWay ends concluded (.inl control)
    (by rw [controlLoad, control]; simp [computed, Phase.workload])
  exact ⟨_, advances⟩

theorem advance_computing {text : Text}
    (orderly : Orderly documents session) (idle : session.control = .idle)
    (known : documents id = some tracked) (underWay : tracked.work? = some work)
    (computing : work.phase = .computing text) :
    ∃ after, Advances documents after session
      (session.complete (tracked.runOf id work) text) := by
  have ends : (session.strand documents id).endingOf? tracked work =
      some ((session.strand documents id).conclusion tracked text
        (Highlights.compute text work.config.highlight)) := by
    rw [Strand.endingOf?, computing]
  obtain ⟨lookup, resumed⟩ :=
    (orderly.shows_of_idle idle).complete known underWay computing
  have control := (complete_control session (tracked.runOf id work) text).trans idle
  have advances := orderly.advance_resumes idle known underWay ends resumed rfl rfl
    (.inl control) (by rw [controlLoad, control]; simp [computing, Phase.workload])
  exact ⟨_, advances⟩

end Orderly

theorem Shows.findRun? (shows : session.Shows documents calls) {run : Run}
    (member : run ∈ session.runs) :
    session.findRun? run.id run.generation = some run := by
  cases found : session.findRun? run.id run.generation with
  | none =>
      have absent := List.find?_eq_none.mp found run member
      simp [Run.is] at absent
  | some other =>
      have sameKey := findRun?_key found
      rw [shows.eq_of_id (findRun?_mem found) member (congrArg Prod.fst sameKey)]

/-- What may come next while nothing is being carried out. -/
theorem nextMove?_of_idle {move : Move} (idle : session.control = .idle)
    (next : session.nextMove? = some move) :
    (∃ run ∈ session.runs, run.phase.isReady = true ∧ move = session.pollNow run) ∨
      (∃ notice ∈ session.notices, move = .tell notice) ∨
        ∃ run ∈ session.runs, run.phase.isComputing = true ∧ move = run.complete := by
  have isIdle : session.isIdle = true := isIdle_iff.mpr idle
  have poll : ∀ {chosen : Run → Bool}, (∀ run, chosen run = true → run.phase.isReady = true) →
      (session.runs.find? chosen).map session.pollNow = some move →
        ∃ run ∈ session.runs, run.phase.isReady = true ∧ move = session.pollNow run := by
    intro chosen ready found
    obtain ⟨run, isFound, rfl⟩ := Option.map_eq_some_iff.mp found
    exact ⟨run, List.mem_of_find?_eq_some isFound, ready run (List.find?_some isFound), rfl⟩
  rw [nextMove?, if_neg (by simp [isIdle])] at next
  rcases Option.or_eq_some_iff.mp next with awaited | ⟨-, next⟩
  · exact .inl (poll (fun run chosen => (Bool.and_eq_true _ _ ▸ chosen).1) awaited)
  rcases Option.or_eq_some_iff.mp next with turn | ⟨-, next⟩
  · rw [nextTurn?] at turn
    split at turn
    case h_1 notice found =>
      cases turn
      exact .inr (.inl ⟨notice, List.mem_of_find?_eq_some found, rfl⟩)
    case h_2 =>
      refine .inl (poll (fun run queued => ?_) turn)
      cases phase : run.phase <;> simp_all [Phase.isQueued, Phase.isReady]
  rcases Option.or_eq_some_iff.mp next with ready | ⟨-, computing⟩
  · exact .inl (poll (fun _ isReady => isReady) ready)
  · obtain ⟨run, found, rfl⟩ := Option.map_eq_some_iff.mp computing
    have computes : run.phase.isComputing = true := by simpa using List.find?_some found
    exact .inr (.inr ⟨run, List.mem_of_find?_eq_some found, computes, rfl⟩)

namespace Orderly

/-- A session in order with no next move is at rest. -/
theorem atRest (orderly : Orderly documents session) (none : session.nextMove? = none) :
    AtRest documents session := by
  have idle : session.control = .idle := by
    rw [← isIdle_iff]
    by_contra busy
    rw [nextMove?, if_pos (by simpa using busy)] at none
    cases none
  rw [nextMove?, if_neg (by simp [isIdle_iff.mpr idle])] at none
  simp only [Option.or_eq_none_iff, Option.map_eq_none_iff, List.find?_eq_none] at none
  obtain ⟨-, noTurn, notReady, notComputing⟩ := none
  refine ⟨orderly.shows_of_idle idle, ?_, idle, ?_⟩
  · intro id tracked known work underWay
    have member := orderly.shows.mem_runs known underWay
    have fits := (orderly.shows.working known underWay).2
    have notReady := notReady _ member
    have notComputing := notComputing _ member
    rw [Work.Fits] at fits
    cases phase : work.phase <;>
      simp_all [Tracked.runOf, Phase.isReady, Phase.isComputing, Phase.isSleeping]
  · rw [nextTurn?] at noTurn
    split at noTurn
    · cases noTurn
    · rename_i noneDue
      rw [List.eq_nil_iff_forall_not_mem]
      intro notice member
      have notDue := List.find?_eq_none.mp noneDue notice member
      simp [Notice.isDue, (orderly.notices notice member).1] at notDue

theorem advance_poll (orderly : Orderly documents session)
    (idle : session.control = .idle) {run : Run} (member : run ∈ session.runs)
    (ready : run.phase.isReady = true) (nanoseconds : Nat) :
    ∃ after, Advances documents after session (session.poll run nanoseconds) := by
  obtain ⟨tracked, work, known, underWay, same⟩ := orderly.shows.exists_work member
  have fits := (orderly.shows.working known underWay).2
  have samePhase : run.phase = work.phase := by rw [← same]; rfl
  rw [samePhase] at ready
  rw [Work.Fits] at fits
  rw [poll, samePhase]
  cases phase : work.phase with
  | due =>
      have advances := orderly.advance_due idle known underWay phase
      rwa [same] at advances
  | computed text highlights lookup =>
      have advances := orderly.advance_computed idle known underWay phase nanoseconds
      rwa [same] at advances
  | granted => simp [phase] at fits
  | failed reason => simp [phase] at fits
  | _ => simp [phase, Phase.isReady] at ready

theorem advance_complete (orderly : Orderly documents session)
    (idle : session.control = .idle) {run : Run} (member : run ∈ session.runs)
    {text : Text} (computing : run.phase = .computing text) :
    ∃ after, Advances documents after session (session.complete run text) := by
  obtain ⟨tracked, work, known, underWay, same⟩ := orderly.shows.exists_work member
  have samePhase : run.phase = work.phase := by rw [← same]; rfl
  have advances := orderly.advance_computing idle known underWay
    (samePhase.symm.trans computing)
  rwa [same] at advances

/-- What is being carried out goes on. -/
theorem advance_proceed (orderly : Orderly documents session)
    (busy : session.control ≠ .idle) :
    ∃ after, Advances documents after session session.proceed := by
  cases control : session.control with
  | idle => exact absurd control busy
  | perform action frames => exact absurd control (orderly.answering action frames)
  | answer answer frames =>
      cases frames with
      | nil =>
          rw [proceed, control]
          exact ⟨_, orderly.advance_idle control⟩
      | cons frame frames =>
          have plain := orderly.plain frame (by simp [control, Control.frames])
          rw [proceed, control]
          cases frame with
          | host => exact ⟨_, orderly.advance_host control⟩
          | call => exact ⟨_, orderly.advance_call control⟩
          | rearm id rest outcomes =>
              have rearmed : ∃ result, session.resume answer (.rearm id rest outcomes) frames =
                  session.rearmNext rest result frames := by
                cases answer <;> exact ⟨_, rfl⟩
              obtain ⟨result, resumed⟩ := rearmed
              dsimp only
              rw [resumed]
              cases rest with
              | nil => exact ⟨_, orderly.advance_rearm_nil control result⟩
              | cons next later => exact orderly.advance_rearm_cons control result
          | _ => cases plain

/-- A session that is in order is at rest, or its next move keeps order and
outlook. -/
theorem advances (orderly : Orderly documents session) :
    (AtRest documents session ∧ session.nextMove?.bind session.move? = none) ∨
      ∃ after final, session.nextMove?.bind session.move? = some final ∧
        Advances documents after session final := by
  by_cases idle : session.control = .idle
  · have isIdle := isIdle_iff.mpr idle
    cases next : session.nextMove? with
    | none => exact .inl ⟨orderly.atRest next, rfl⟩
    | some move =>
        refine .inr ?_
        rw [Option.bind_some]
        rcases nextMove?_of_idle idle next with
          ⟨run, member, ready, rfl⟩ | ⟨notice, member, rfl⟩ | ⟨run, member, computing, rfl⟩
        · obtain ⟨after, advances⟩ := orderly.advance_poll idle member ready (session.stopwatch run)
          refine ⟨after, _, ?_, advances⟩
          rw [pollNow, move?, if_pos isIdle, orderly.shows.findRun? member]
          exact if_pos ready
        · exact ⟨documents, _, if_pos ⟨isIdle, member⟩, orderly.advance_tell idle member⟩
        · cases phase : run.phase with
          | computing text =>
              obtain ⟨after, advances⟩ := orderly.advance_complete idle member phase
              refine ⟨after, _, ?_, advances⟩
              rw [Run.complete, move?, orderly.shows.findRun? member]
              dsimp only
              rw [phase]
          | _ => simp [phase, Phase.isComputing] at computing
  · obtain ⟨after, advances⟩ := orderly.advance_proceed idle
    have busy : session.isIdle = false := by
      simpa [isIdle_iff] using Bool.eq_false_iff.mpr (mt isIdle_iff.mp idle)
    refine .inr ⟨after, _, ?_, advances⟩
    rw [nextMove?, if_pos (by simp [busy]), Option.bind_some, move?, if_neg (by simp [busy])]

/-- With as many moves as it has work, a session comes to rest, and the strand of
every document is then its outlook. -/
theorem settleWithin {moves : Nat} (orderly : Orderly documents session)
    (enough : session.workload ≤ moves) :
    ∃ after, AtRest after (session.settleWithin moves) ∧
      (∀ id, (session.settleWithin moves).strand after id = session.outlook documents id) ∧
      ∀ id, Single documents id session →
        (session.settleWithin moves).answer = session.prospect documents id := by
  induction moves generalizing session documents with
  | zero =>
      rcases orderly.advances with ⟨rest, _⟩ | ⟨_, _, _, advances⟩
      · exact ⟨documents, rest, fun id => (rest.outlook id).symm,
          fun id _ => (rest.prospect id).symm⟩
      · have less := advances.workload
        omega
  | succ moves induction =>
      rcases orderly.advances with ⟨rest, none⟩ | ⟨after, final, next, advances⟩
      · rw [Session.settleWithin, none]
        exact ⟨documents, rest, fun id => (rest.outlook id).symm,
          fun id _ => (rest.prospect id).symm⟩
      · have less := advances.workload
        obtain ⟨settled, rest, strands, answers⟩ := induction advances.orderly (by omega)
        rw [Session.settleWithin, next]
        refine ⟨settled, rest, fun id => (strands id).trans (advances.outlook id),
          fun id single => ?_⟩
        obtain ⟨singleAfter, prospect⟩ := advances.prospect id single
        exact (answers id singleAfter).trans prospect

end Orderly

end Session

end LogTint
