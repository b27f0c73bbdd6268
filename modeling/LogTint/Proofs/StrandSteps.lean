import LogTint.Proofs.Settling

/-!
# What the host does moves every strand on

A session at rest comes to rest again after everything that the host does, and
the strand of each document is then where `Strand.step` leads it.  The other
documents, the cache and the order of turns make no difference.
-/

namespace LogTint

theorem Settings.debounce_pos {settings : Settings} (valid : settings.validate = .ok ()) :
    0 < settings.debounce := by
  rw [Nat.pos_iff_ne_zero]
  intro none
  rw [validate, fault?, if_pos none] at valid
  cases valid

namespace Session

variable {documents between : DocumentId → Option Tracked} {session final begun : Session}
  {id : DocumentId} {tracked : Tracked}

/-- The session is at rest after a step, every strand is where the step leads it,
and the strand of the document that the step names knows the answer. -/
def StepsAsStrands (documents : DocumentId → Option Tracked) (session : Session)
    (step : Step) : Prop :=
  ∃ after, AtRest after (session.step step) ∧
    (∀ id, (session.step step).strand after id =
      (session.strand documents id).step step) ∧
    ∀ id, step.document? = some id →
      (session.step step).answer = (session.strand documents id).answer step

/-- What is in order settles, and the outlook comes true. -/
theorem Orderly.steps {step : Step} {moves : Nat} (orderly : Orderly between begun)
    (enough : begun.workload ≤ moves)
    (settled : session.step step = begun.settleWithin moves)
    (outlooks : ∀ id, begun.outlook between id =
      (session.strand documents id).step step)
    (prospects : ∀ id, step.document? = some id → Single between id begun ∧
      begun.prospect between id = (session.strand documents id).answer step) :
    StepsAsStrands documents session step := by
  obtain ⟨after, rest, strands, answers⟩ := orderly.settleWithin enough
  rw [StepsAsStrands, settled]
  refine ⟨after, rest, fun id => (strands id).trans (outlooks id), fun id names => ?_⟩
  obtain ⟨single, prospect⟩ := prospects id names
  exact (answers id single).trans prospect

/-- Documents that were edited while nothing else was under way sleep on. -/
theorem Asleep.finish_edits (asleep : Asleep documents) (session : Session)
    (ids : List DocumentId) (id : DocumentId) :
    (if id ∈ ids then (session.strand documents id).edit.2
      else session.strand documents id).finish =
        if id ∈ ids then (session.strand documents id).edit.2
          else session.strand documents id := by
  split
  · exact Strand.finish_of_dormant (Strand.edit_dormant (asleep id))
  · exact Strand.finish_of_dormant (asleep id)

/-- An action is begun, and as many moves are left as it may take. -/
theorem settle_act (session : Session) (action : Action) :
    ∃ moves, 24 + 6 * session.registry.size ≤ moves ∧
      session.step (.act action) =
        settleWithin moves ((session.awaiting.act action).perform action [.host]) := by
  have enough : 24 + 6 * session.registry.size + 1 ≤
      (session.awaiting.act action).workload := by
    have size : (session.awaiting.act action).registry.size = session.registry.size := rfl
    have one : ([Frame.host].map Frame.workload).foldr (· + ·) 0 = 1 := rfl
    have least : (session.awaiting.act action).actionWorkload + 1 ≤
        (session.awaiting.act action).workload := by
      rw [workload, show (session.awaiting.act action).control =
        .perform action [.host] from rfl]
      dsimp only
      omega
    rw [actionWorkload, size] at least
    omega
  obtain ⟨moves, same⟩ : ∃ moves, (session.awaiting.act action).workload = moves + 1 :=
    ⟨_, (Nat.succ_pred_eq_of_pos (by omega)).symm⟩
  refine ⟨moves, by omega, ?_⟩
  rw [step, settle, same]
  exact settleWithin_busy rfl moves

/-- A document is given a run while nothing else is under way but timers. -/
theorem Edited.orderly {new? : Option Tracked} (shows : session.Shows documents 0)
    (asleep : Asleep documents) (noNotices : session.notices = [])
    (edited : session.Edited documents 0 id new? [] final) :
    Orderly (Function.update documents id new?) { final with control := .idle } ∧
      workload { final with control := .idle } =
        ((new?.bind (Tracked.run? id)).toList.map (·.phase.workload)).sum ∧
      (∀ other, outlook { final with control := .idle }
          (Function.update documents id new?) other =
        if other = id then { session.strand documents id with tracked? := new? }.finish
        else session.strand documents other) ∧
      Single (Function.update documents id new?) id { final with control := .idle } ∧
      prospect { final with control := .idle } (Function.update documents id new?) id =
        { session.strand documents id with tracked? := new? }.awaited?.getD
          session.answer := by
  have noNoticesThen : final.notices = [] := by rw [edited.notices, noNotices]; rfl
  have showsThen : Shows (Function.update documents id new?) 0
      { final with control := .idle } := edited.shows.aside _ _ _ _ _
  have orderly := showsThen.orderly rfl noNoticesThen
  have strands : ∀ other,
      strand { final with control := .idle } (Function.update documents id new?) other =
        if other = id then { session.strand documents id with tracked? := new? }
        else session.strand documents other := by
    intro other
    rw [show strand { final with control := .idle } _ other = final.strand _ other from rfl,
      edited.turns.strand (by simp)]
    simp
  refine ⟨orderly, ?_, fun other => ?_, ⟨by simp [Control.frames], fun other different => ?_⟩,
    ?_⟩
  · have runs := (edited.turns.runs.map (·.phase.workload)).sum_nat
    rw [List.map_append, List.sum_append,
      shows.load_of_asleep asleep (show session.others id ⊆ session.runs from
        List.filter_subset_self _), Nat.zero_add] at runs
    rw [orderly.workload_eq]
    show 0 + (final.runs.map (·.phase.workload)).sum + final.notices.length = _
    rw [noNoticesThen, runs]
    simp
  · rw [show outlook { final with control := .idle } (Function.update documents id new?) other
      = _ from outlook_of_idle rfl (by exact noNoticesThen) _ other, strands]
    by_cases here : other = id
    · rw [if_pos here, if_pos here]
    · rw [if_neg here, if_neg here, Strand.finish_of_dormant (asleep other)]
  · rw [strands, if_neg different]
    exact Strand.awaited?_of_dormant (asleep other)
  · rw [prospect, strands, if_pos rfl, spoken, edited.answer]

/-- A call on a tracked document lets its run go on as far as it can. -/
theorem Shows.orderly_beginNow {awaited : Bool} {frames : List Frame}
    (shows : session.Shows documents 0) (asleep : Asleep documents)
    (held : session.held = true) (noNotices : session.notices = [])
    (silent : session.answer = .nothing) (known : documents id = some tracked)
    (last : frames = [] ∨ frames = [.host] ∧ awaited = false) :
    ∃ after,
      Orderly after (session.beginNow awaited id frames) ∧
      (session.beginNow awaited id frames).workload < 14 ∧
      (∀ other, (session.beginNow awaited id frames).outlook after other =
        if other = id then ((session.strand documents id).asked tracked awaited).finish
        else session.strand documents other) ∧
      Single after id (session.beginNow awaited id frames) ∧
      (session.beginNow awaited id frames).prospect after id =
        ((session.strand documents id).asked tracked awaited).awaited?.getD .nothing := by
  obtain ⟨asked, begun, edited⟩ := shows.beginNow asleep held known awaited frames
  let work : Work := ⟨session.settings.workerConfig, .call awaited, .due⟩
  have knownThen := Function.update_self id (some (tracked.renewed (some work))) documents
  obtain ⟨orderly, load, outlooks, single, prospect⟩ :=
    Edited.orderly shows asleep noNotices edited
  obtain ⟨final, requested, reads⟩ := edited.shows.requestLock knownThen rfl rfl frames
  have asksFrames : frames = [] ∨
      frames = [.host] ∧ work.origin ≠ .call true ∧ asked.answer = .nothing := by
    rcases last with none | ⟨host, unawaited⟩
    · exact .inl none
    · exact .inr ⟨host, by simp [work, unawaited], edited.answer.trans silent⟩
  obtain ⟨after, advances⟩ := orderly.advance_reads rfl knownThen rfl rfl
    (reads.aside .idle) asksFrames
  obtain ⟨singleAfter, prospectAfter⟩ := advances.prospect id single
  rw [begun, show asked.requestLock ((tracked.renewed none).runOf id work) frames = _
    from requested]
  refine ⟨after, advances.orderly, ?_, fun other => (advances.outlook other).trans
    (outlooks other), singleAfter, ?_⟩
  · have less := advances.workload
    rw [load] at less
    exact less
  · rw [prospectAfter, prospect, silent]
    rfl

/-- A call on a document that is not tracked is answered at once. -/
theorem Shows.beginNow_unknown (shows : session.Shows documents 0)
    (unknown : documents id = none) (awaited : Bool) (frames : List Frame) :
    ∃ final : Session,
      session.beginNow awaited id frames = final.answering .nothing frames ∧
      final.Shows documents 0 ∧ final.notices = session.notices ∧
      (final.answer =
        if awaited then .failure (.documentNotFound id) else session.answer) ∧
      ∀ other, final.strand documents other =
        if other = id then
          (session.strand documents id).reply (.call awaited)
            (.failure (.documentNotFound id))
        else session.strand documents other := by
  refine ⟨session.beginCall.reply (.call awaited) id (.failure (.documentNotFound id)),
    ?_, ?_, ?_, ?_, fun other => ?_⟩
  · rw [Session.beginNow]
    dsimp only
    rw [shows.beginCall.entries, unknown]
    rfl
  · rw [reply_of_dropped (by exact shows.dropped)]
    exact { shows.aside session.metrics session.notices session.control _ _ with
      calls := shows.calls }
  · rw [reply_of_dropped (by exact shows.dropped)]
    rfl
  · rw [reply_of_dropped (by exact shows.dropped)]
    cases awaited <;> rfl
  · rw [reply_of_dropped (by exact shows.dropped)]
    by_cases here : other = id
    · subst here
      cases awaited <;>
        simp [strand, Strand.reply, Strand.tell, Event.isAbout, Session.beginCall]
    · cases awaited <;>
        simp [strand, Event.isAbout, Session.beginCall, here, Ne.symm here]

namespace AtRest

theorem single (rest : AtRest documents session) (id : DocumentId) :
    Single documents id session :=
  ⟨by simp [rest.idle, Control.frames],
    fun other _ => Strand.awaited?_of_dormant (rest.asleep other)⟩

theorem shows_act (rest : AtRest documents session) (action : Action) :
    (session.awaiting.act action).Shows documents 0 :=
  rest.shows.aside _ _ _ _ _

/-- Nothing is left to do but to hand an answer over. -/
theorem steps_answered {step : Step} {answer : Answer} {frames : List Frame} {moves : Nat}
    (shows : final.Shows between (frames.countP (· = Frame.call)))
    (asleep : Asleep between) (noNotices : final.notices = [])
    (last : frames = [] ∨ frames = [.host] ∨ frames = [.call, .host])
    (enough : min 3 (final.answering answer frames).workload ≤ moves)
    (settled : session.step step = settleWithin moves (final.answering answer frames))
    (strands : ∀ id, final.strand between id = (session.strand documents id).step step)
    (answers : ∀ id, step.document? = some id →
      (if .host ∈ frames then answer else final.answer) =
        (session.strand documents id).answer step) :
    StepsAsStrands documents session step := by
  have single : ∀ frame ∈ frames, frame.isSingle = true := by
    rcases last with rfl | rfl | rfl <;> simp [Frame.isSingle]
  have plain : ∀ frame ∈ frames, frame.isPlain = true := by
    rcases last with rfl | rfl | rfl <;> simp [Frame.isPlain]
  have noDebts : (Debts.ofFrames frames).edits = [] := by
    rcases last with rfl | rfl | rfl <;> rfl
  have load : (frames.map Frame.workload).sum ≤ 2 := by
    rcases last with rfl | rfl | rfl <;> simp [Frame.workload]
  have noDebtsAfter : (final.answering answer frames).debts.edits = [] := noDebts
  have noNoticesAfter : (final.answering answer frames).notices = [] := noNotices
  have orderly : Orderly between (final.answering answer frames) :=
    { shows := shows.aside _ _ _ _ _
      plain
      answering := fun _ _ impossible => by cases impossible
      notices := by simp [noNoticesAfter]
      distinct := by simp [noDebtsAfter]
      editing := by simp [noDebtsAfter] }
  have work : (final.answering answer frames).workload ≤ 3 := by
    rw [orderly.workload_eq, runLoad, orderly.shows.load_of_asleep asleep (List.Subset.refl _),
      noNoticesAfter]
    show 1 + (frames.map Frame.workload).sum + 0 + 0 ≤ 3
    omega
  refine orderly.steps (by omega) settled (fun id => ?_)
    fun id names => ⟨⟨single, ?_⟩, ?_⟩
  · rw [Session.outlook, noDebtsAfter, if_neg List.not_mem_nil,
      Strand.finish_of_dormant (by exact asleep id), noNoticesAfter, List.countP_nil,
      Strand.toldClosed_zero]
    exact strands id
  · exact fun other _ => Strand.awaited?_of_dormant (asleep other)
  · rw [Session.prospect, Strand.awaited?_of_dormant (by exact asleep id), ← answers id names]
    rfl

/-- An action is carried out at once. -/
theorem steps_atOnce {action : Action} {answer : Answer} {change : Strand → Strand}
    (rest : AtRest documents session)
    (performed : (session.awaiting.act action).perform action [.host] =
      final.answering answer [.host])
    (acts : Acts change documents (session.awaiting.act action) final)
    (changes : ∀ id, change (session.strand documents id) =
      (session.strand documents id).step (.act action))
    (answers : ∀ id, action.document? = some id →
      answer = (session.strand documents id).answer (.act action)) :
    StepsAsStrands documents session (.act action) := by
  obtain ⟨between, shows, asleep, strands, notices⟩ := acts
  obtain ⟨moves, enough, settled⟩ := settle_act session action
  rw [performed] at settled
  refine steps_answered (by exact shows) asleep (notices.trans rest.notices)
    (.inr (.inl rfl)) (by omega) settled (fun id => (strands id).trans (changes id))
    fun id names => ?_
  rw [← answers id names]
  rfl

/-- The host has given the scheduler up and asks something of it. -/
theorem steps_unavailable {action : Action} (rest : AtRest documents session)
    (unavailable : (action.needsScheduler && !session.held) = true) :
    StepsAsStrands documents session (.act action) := by
  have released : session.held = false := by
    simpa using (Bool.and_eq_true_iff.mp unavailable).2
  refine rest.steps_atOnce (if_pos unavailable)
    ((rest.shows_act action).acts_refl rest.asleep) (fun id => (if_pos unavailable).symm) ?_
  intro id names
  have gone : (session.strand documents id).held = false := released
  cases action <;> cases names <;> simp [Strand.answer, gone]

theorem steps_performed {action : Action} {result : Answer × Session}
    (rest : AtRest documents session)
    (available : (action.needsScheduler && !session.held) = false)
    (performed : (session.awaiting.act action).performAtOnce? action = some result)
    (acts : Acts (·.perform action) documents (session.awaiting.act action) result.2)
    (answers : ∀ id, action.document? = some id →
      result.1 = (session.strand documents id).answer (.act action)) :
    StepsAsStrands documents session (.act action) :=
  rest.steps_atOnce (perform_of_performAtOnce? available performed) acts
    (fun id => by
      rw [Strand.step, show (session.strand documents id).held = session.held from rfl,
        available]
      rfl)
    answers

/-- An action that names no document. -/
theorem steps_unnamed {action : Action} {result : Answer × Session}
    (rest : AtRest documents session)
    (available : (action.needsScheduler && !session.held) = false)
    (unnamed : action.document? = none)
    (performed : (session.awaiting.act action).performAtOnce? action = some result)
    (acts : Acts (·.perform action) documents (session.awaiting.act action) result.2) :
    StepsAsStrands documents session (.act action) := by
  refine rest.steps_performed available performed acts fun id names => ?_
  rw [unnamed] at names
  cases names

theorem info_eq (rest : AtRest documents session) (id : DocumentId) :
    (session.registry.find? id).map Entry.info = (session.strand documents id).info? := by
  rw [rest.shows.entries, Option.map_map]
  rfl

/-- What no document has to be edited or computed for. -/
theorem steps_simple {action : Action} (rest : AtRest documents session)
    (available : (action.needsScheduler && !session.held) = false)
    (simple : ((session.awaiting.act action).performAtOnce? action).isSome = true) :
    StepsAsStrands documents session (.act action) := by
  have shows := rest.shows_act action
  have asleep := rest.asleep
  have strandHeld : ∀ id, (session.strand documents id).held = session.held := fun _ => rfl
  cases action with
  | replace source text =>
      exact rest.steps_unnamed available rfl rfl
        (shows.acts_rewriteSource asleep source (·.replace text))
  | append source text =>
      exact rest.steps_unnamed available rfl rfl
        (shows.acts_rewriteSource asleep source (·.append text))
  | release source =>
      exact rest.steps_unnamed available rfl rfl (shows.acts_releaseSource asleep source)
  | register source =>
      have held : session.held = true := by simpa [Action.needsScheduler] using available
      exact rest.steps_unnamed available rfl rfl (shows.acts_register asleep held source)
  | unregister id =>
      have held : session.held = true := by simpa [Action.needsScheduler] using available
      refine rest.steps_performed available rfl (shows.acts_unregister asleep id) ?_
      rintro _ ⟨⟩
      rw [Strand.answer, strandHeld, if_pos held,
        show (session.strand documents id).tracked? = documents id from rfl,
        Session.unregister, shows.contains]
      split <;> rfl
  | sweep => exact rest.steps_unnamed available rfl rfl (shows.acts_sweep asleep)
  | shutdown => exact rest.steps_unnamed available rfl rfl (shows.acts_shutdown asleep)
  | info id =>
      have held : session.held = true := by simpa [Action.needsScheduler] using available
      refine rest.steps_performed available rfl (shows.acts_refl asleep) ?_
      rintro _ ⟨⟩
      rw [Strand.answer, strandHeld, if_pos held, ← rest.info_eq]
      rfl
  | contains id =>
      have held : session.held = true := by simpa [Action.needsScheduler] using available
      refine rest.steps_performed available rfl (shows.acts_refl asleep) ?_
      rintro _ ⟨⟩
      rw [Strand.answer, strandHeld, if_pos held,
        show (session.strand documents id).tracked? = documents id from rfl,
        ← rest.shows.contains]
      rfl
  | settings => exact rest.steps_unnamed available rfl rfl (shows.acts_refl asleep)
  | clearCache =>
      exact rest.steps_unnamed available rfl rfl (shows.acts_clearCache asleep)
  | describe => exact rest.steps_unnamed available rfl rfl (shows.acts_refl asleep)
  | dropScheduler =>
      exact rest.steps_unnamed available rfl rfl (shows.acts_dropScheduler asleep)
  | edit id => cases simple
  | startNow id => cases simple
  | reconfigure settings => cases simple

theorem steps_edit (rest : AtRest documents session) (held : session.held = true)
    (id : DocumentId) : StepsAsStrands documents session (.act (.edit id)) := by
  obtain ⟨moves, enough, settled⟩ := settle_act session (.edit id)
  rw [perform, if_neg (by simp [show (session.awaiting.act (.edit id)).held = true from held])]
    at settled
  have noNotices : (session.awaiting.act (.edit id)).notices = [] := rest.notices
  have shows := rest.shows_act (.edit id)
  have heldThere : ∀ other, (session.strand documents other).held = true := fun _ => held
  obtain ⟨edited, begun, -⟩ := shows.beginEdit rest.asleep held id [.host]
  obtain ⟨after, orderly, work, outlooks, asleep, spoken⟩ :=
    Shows.orderly_beginEdit id [.host] shows rest.asleep held (by simp [noNotices])
      (by simp [Frame.isPlain]) (List.nodup_singleton id)
  have frames : ((session.awaiting.act (.edit id)).beginEdit id [.host]).control.frames =
      [.call, .host] := by
    rw [begun]
    rfl
  refine orderly.steps ?_ settled (fun other => ?_) ?_
  · rw [noNotices] at work
    exact Nat.le_trans work (Nat.le_trans (by simp [Frame.workload]; omega) enough)
  · rw [outlooks, noNotices, rest.asleep.finish_edits, List.countP_nil, Strand.toldClosed_zero]
    have edits : other ∈ id :: (Debts.ofFrames [.host]).edits ↔ id = other := by
      rw [show (Debts.ofFrames [.host]).edits = [] from rfl, List.mem_singleton, eq_comm]
    simp only [edits, Strand.step, heldThere, Strand.perform]
    rfl
  · rintro _ ⟨⟩
    refine ⟨⟨?_, fun other _ => Strand.awaited?_of_dormant (asleep other)⟩, ?_⟩
    · rw [frames]
      simp [Frame.isSingle]
    · rw [Session.prospect, Strand.awaited?_of_dormant (by exact asleep id), spoken]
      simp only [Strand.answer, heldThere]
      rfl

/-- A change of settings edits every document. -/
theorem steps_reconfigure (rest : AtRest documents session)
    (held : session.held = true) (settings : Settings) :
    StepsAsStrands documents session (.act (.reconfigure settings)) := by
  obtain ⟨moves, enough, settled⟩ := settle_act session (.reconfigure settings)
  have noNotices : (session.awaiting.act (.reconfigure settings)).notices = [] := rest.notices
  have heldThere : ∀ other, (session.strand documents other).held = true := fun _ => held
  have called := (rest.shows_act (.reconfigure settings)).beginCall
  rw [perform, if_neg
    (by simp [show (session.awaiting.act (.reconfigure settings)).held = true from held])]
    at settled
  have stepped : ∀ id, (session.strand documents id).step (.act (.reconfigure settings)) =
      (session.strand documents id).reconfigure settings := by
    intro id
    rw [Strand.step, heldThere]
    rfl
  cases valid : settings.validate with
  | error fault =>
      rw [Session.reconfigure, valid] at settled
      refine steps_answered (by exact called) rest.asleep (by exact noNotices)
        (.inr (.inr rfl))
        (by omega) settled (fun id => ?_) nofun
      rw [stepped, Strand.reconfigure, valid]
      rfl
  | ok _ =>
      have chosen : Shows documents 1
          { (session.awaiting.act (.reconfigure settings)).beginCall with settings } :=
        { called with debounce := Settings.debounce_pos valid }
      have unnoticed : Session.notices
          { (session.awaiting.act (.reconfigure settings)).beginCall with settings } = [] :=
        noNotices
      rw [reconfigure_valid valid] at settled
      have changed : ∀ id, (session.strand documents id).step (.act (.reconfigure settings)) =
          (Strand.edit { session.strand documents id with settings }).2 := by
        intro id
        rw [stepped, Strand.reconfigure, valid]
      cases ids : session.registry.ids with
      | nil =>
          rw [show (session.awaiting.act (.reconfigure settings)).registry.ids = [] from ids]
            at settled
          refine steps_answered (by exact chosen) rest.asleep (by exact noNotices)
            (.inr (.inr rfl)) (by omega) settled (fun id => ?_) nofun
          have untracked : documents id = none := by
            rw [← Option.not_isSome_iff_eq_none, ← rest.shows.mem_ids_iff, ids]
            exact List.not_mem_nil
          rw [changed, Strand.edit_unknown (by exact untracked)]
          rfl
      | cons next later =>
          rw [show (session.awaiting.act (.reconfigure settings)).registry.ids =
            next :: later from ids] at settled
          have edits : (Debts.ofFrames [.rearm next later [], .call, .host]).edits = later :=
            List.append_nil later
          obtain ⟨after, orderly, work, outlooks, -, -⟩ :=
            Shows.orderly_beginEdit next [.rearm next later [], .call, .host]
              chosen rest.asleep held
              (fun notice member => absurd (unnoticed ▸ member) List.not_mem_nil)
              (by simp [Frame.isPlain]) (by rw [edits, ← ids]; exact rest.shows.ids)
          have size : session.registry.size = later.length + 1 := by
            rw [← List.length_cons (a := next), ← ids, Registry.ids, List.length_map]
            rfl
          refine orderly.steps ?_ settled (fun other => ?_) nofun
          · refine Nat.le_trans work ?_
            rw [unnoticed]
            simp only [List.map_cons, List.map_nil, List.sum_cons, List.sum_nil,
              Frame.workload, List.length_nil]
            omega
          · rw [outlooks, unnoticed, rest.asleep.finish_edits, List.countP_nil,
              Strand.toldClosed_zero, edits, ← ids, changed]
            split
            · rfl
            · rename_i absent
              rw [rest.shows.mem_ids_iff, Option.not_isSome_iff_eq_none] at absent
              rw [Strand.edit_unknown (by exact absent)]
              rfl

/-- A call is made, by a step or with one. -/
theorem steps_call {step : Step} {awaited : Bool} {frames : List Frame} {moves : Nat}
    (rest : AtRest documents session) (asking : Session) (held : session.held = true)
    (shows : asking.Shows documents 0) (silent : asking.answer = .nothing)
    (noNotices : asking.notices = [])
    (strands : ∀ other, asking.strand documents other = session.strand documents other)
    (last : frames = [] ∧ awaited = true ∨ frames = [.host] ∧ awaited = false)
    (enough : min 14 (asking.beginNow awaited id frames).workload ≤ moves)
    (settled : session.step step = settleWithin moves (asking.beginNow awaited id frames))
    (names : step.document? = some id)
    (stepped : ∀ other, (session.strand documents other).step step =
      if other = id then (session.strand documents id).call awaited
      else session.strand documents other)
    (answered : (session.strand documents id).answer step =
      if awaited then (session.strand documents id).callAnswer else .nothing) :
    StepsAsStrands documents session step := by
  have here : (session.strand documents id).tracked? = documents id := rfl
  have heldThen : asking.held = true :=
    (congrArg Strand.held (strands id)).trans held
  cases known : documents id with
  | none =>
      obtain ⟨final, begun, showsThen, notices, answer, strandsThen⟩ :=
        shows.beginNow_unknown known awaited frames
      rw [begun] at settled enough
      have noCalls : frames.countP (· = Frame.call) = 0 := by
        rcases last with ⟨rfl, _⟩ | ⟨rfl, _⟩ <;> simp
      refine steps_answered (by rw [noCalls]; exact showsThen) rest.asleep
        (notices.trans noNotices) (last.imp And.left (.inl ·.1)) (by omega) settled
        (fun other => ?_) ?_
      · rw [strandsThen, stepped, strands, strands, Strand.call, here, known]
        rfl
      · rw [names]
        rintro _ ⟨⟩
        rw [answered, Strand.callAnswer, here, known, answer]
        rcases last with ⟨rfl, rfl⟩ | ⟨rfl, rfl⟩ <;> rfl
  | some tracked =>
      obtain ⟨after, orderly, less, outlooks, single, prospect⟩ :=
        shows.orderly_beginNow rest.asleep heldThen noNotices silent known
          (last.imp And.left fun host => host)
      refine orderly.steps (by omega) settled (fun other => ?_) ?_
      · rw [outlooks, stepped, strands, strands, Strand.call, here, known]
      · rw [names]
        rintro _ ⟨⟩
        refine ⟨single, ?_⟩
        rw [prospect, answered, Strand.callAnswer, here, known, strands]
        rcases last with ⟨rfl, rfl⟩ | ⟨rfl, rfl⟩
        · rfl
        · have unawaited : ((session.strand documents id).asked tracked false).awaited? =
              none := by
            simp [Strand.awaited?, Strand.asked, Tracked.renewed]
          rw [unawaited]
          rfl

theorem steps_startNow (rest : AtRest documents session) (held : session.held = true)
    (id : DocumentId) : StepsAsStrands documents session (.act (.startNow id)) := by
  obtain ⟨moves, enough, settled⟩ := settle_act session (.startNow id)
  rw [perform, if_neg
    (by simp [show (session.awaiting.act (.startNow id)).held = true from held])] at settled
  have heldThere : ∀ other, (session.strand documents other).held = true := fun _ => held
  refine rest.steps_call _ held (rest.shows_act (.startNow id)) rfl rest.notices
    (fun _ => rfl) (.inr ⟨rfl, rfl⟩) (by omega) settled rfl (fun other => ?_) ?_
  · rw [Strand.step, heldThere]
    show (if id = other then _ else _) = _
    by_cases here : other = id
    · rw [if_pos here.symm, if_pos here, here]
    · rw [if_neg (Ne.symm here), if_neg here]
  · rw [Strand.answer, heldThere]
    rfl

theorem steps_highlightNow (rest : AtRest documents session) (id : DocumentId) :
    StepsAsStrands documents session (.highlightNow id) := by
  have heldThere : ∀ other, (session.strand documents other).held = session.held :=
    fun _ => rfl
  cases held : session.held with
  | true =>
      have begun : session.step (.highlightNow id) =
          (session.awaiting.beginNow true id []).settle := by
        rw [step, highlightNow, if_pos (by exact held)]
      refine rest.steps_call session.awaiting held (rest.shows.aside _ _ _ _ _)
        rfl rest.notices (fun _ => rfl) (.inl ⟨rfl, rfl⟩) (Nat.min_le_right _ _) begun rfl
        (fun other => ?_) ?_
      · rw [Strand.step, heldThere, held, Bool.true_and]
        show (if decide (id = other) then _ else _) = _
        by_cases here : other = id
        · rw [if_pos (by simp [here]), if_pos here, here]
        · rw [if_neg (by simp [Ne.symm here]), if_neg here]
      · rw [Strand.answer, heldThere, held]
        rfl
  | false =>
      have begun : session.step (.highlightNow id) =
          settle { session.awaiting with answer := .noScheduler } := by
        rw [step, highlightNow, if_neg (by simp [awaiting, held])]
      have still : AtRest documents { session.awaiting with answer := .noScheduler } :=
        ⟨rest.shows.aside _ _ _ _ _, rest.asleep, rest.idle, rest.notices⟩
      refine still.orderly.steps (Nat.le_refl _) begun (fun other => ?_) ?_
      · rw [still.outlook, Strand.step, heldThere, held]
        rfl
      · rintro _ ⟨⟩
        refine ⟨still.single id, ?_⟩
        rw [still.prospect, Strand.answer, heldThere, held]
        rfl

/-- The host gets a new document. -/
theorem steps_create (rest : AtRest documents session) {source : Source}
    (quiet : source.isQuiet = true) :
    StepsAsStrands documents session (.create source) := by
  have allQuiet : ∀ other ∈ session.sources ++ [source], other.isQuiet = true := by
    intro other member
    rcases List.mem_append.mp member with old | new
    · exact rest.shows.quiet other old
    · rw [List.mem_singleton.mp new]
      exact quiet
  have shows : Shows documents 0 { session with sources := session.sources ++ [source] } :=
    rest.shows.withSources (by simp) allQuiet
  have still : AtRest documents (session.create source) :=
    ⟨shows.aside _ _ _ _ _, rest.asleep, rest.idle, rest.notices⟩
  refine still.orderly.steps (Nat.le_refl _) rfl (fun other => ?_) nofun
  rw [still.outlook]
  simp [strand, Session.create, Strand.step]

/-- Whatever the host does with a session at rest. -/
theorem steps_act (rest : AtRest documents session) (action : Action) :
    StepsAsStrands documents session (.act action) := by
  cases available : action.needsScheduler && !session.held with
  | true => exact rest.steps_unavailable available
  | false =>
      have held : action.needsScheduler = true → session.held = true := by
        intro needs
        simpa [needs] using available
      cases action with
      | edit id => exact rest.steps_edit (held rfl) id
      | startNow id => exact rest.steps_startNow (held rfl) id
      | reconfigure settings => exact rest.steps_reconfigure (held rfl) settings
      | _ => exact rest.steps_simple available rfl

end AtRest

end Session

end LogTint
