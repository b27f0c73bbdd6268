import LogTint.Proofs.Ledger
import LogTint.Proofs.Sleeping

/-!
# Documents that leave the registry

A document leaves when the host releases it, when an edit finds it given up, or when a
run does.  A release cancels its timer.  A run that has yet to compute is the latest of
its document, so that no timer is left.  A run that has computed need not be the
latest, and lets go of the document without its timer.
-/

namespace LogTint.Session

variable {debts after : Debts} {session middle final : Session} {run : Run}
  {id : DocumentId} {frames : List Frame}

/-! ## What leaves the tracked documents and the counters alone -/

/-- The tracked documents and the counters. -/
def tally (session : Session) : List DocumentId × Metrics :=
  (session.registry.ids, session.metrics)

theorem removeRun_tally (session : Session) (run : Run) :
    (session.removeRun run).tally = session.tally := by
  rw [removeRun_eq]
  rfl

theorem cancelArmed_tally (session : Session) (id : DocumentId) :
    (session.cancelArmed id).2.tally = session.tally := by
  obtain ⟨registry, edited, cancelled⟩ := session.cancelArmed_edited id
  rw [cancelled]
  exact Prod.ext edited.ids rfl

theorem close_tally (session : Session) : session.close.tally = session.tally := by
  have cancelled : ∀ (ids : List DocumentId) (session : Session),
      (ids.foldl (fun session id => (session.cancelArmed id).2) session).tally =
        session.tally := by
    intro ids
    induction ids with
    | nil => exact fun _ => rfl
    | cons id ids induction =>
        intro session
        rw [List.foldl_cons, induction, cancelArmed_tally]
  rw [← cancelled session.registry.ids session]
  refine Prod.ext (Registry.ids_modifyAll (fun _ => ?_) _) rfl
  rfl

theorem endCall_tally (session : Session) : session.endCall.tally = session.tally := by
  unfold endCall
  dsimp only
  split
  · exact close_tally _
  · rfl

theorem giveUp_tally (session : Session) : session.giveUp.tally = session.tally := by
  unfold giveUp
  dsimp only
  split
  · exact close_tally _
  · rfl

theorem reply_tally (session : Session) (origin : Origin) (id : DocumentId)
    (result : Answer) : (session.reply origin id result).tally = session.tally := by
  unfold reply
  split
  · rfl
  · exact endCall_tally _
  · exact endCall_tally _

theorem finish_tally (session : Session) (run : Run) (result : Answer) :
    (session.finish run result).tally = session.tally :=
  (reply_tally _ _ _ _).trans (removeRun_tally session run)

theorem passLock_tally (session : Session) (id : DocumentId) :
    (session.passLock id).tally = session.tally := by
  rw [passLock_eq]
  rfl

theorem breakOff_tally (session : Session) (run : Run) (reason : String) :
    (session.breakOff run reason).tally = session.tally :=
  passLock_tally _ _

theorem complete_tally (session : Session) (run : Run) (text : Text) :
    (session.complete run text).tally = session.tally := by
  obtain ⟨cache, looked⟩ := highlightText_eq session text run.config.highlight
  have parted : (session.complete run text).tally =
      (((session.highlightText text run.config.highlight).2.withoutRun run).passLock
        run.id).tally := rfl
  rw [parted, passLock_tally, looked]
  rfl

/-! ## What leaves the tracked documents alone -/

theorem finish_ids (session : Session) (run : Run) (result : Answer) :
    (session.finish run result).registry.ids = session.registry.ids :=
  congrArg Prod.fst (finish_tally session run result)

theorem setState_ids (session : Session) (id : DocumentId) (state : DocumentState) :
    (session.setState id state).registry.ids = session.registry.ids := by
  refine Registry.ids_modify (fun entry => ?_) _ id
  split <;> rfl

theorem supersede_ids (session : Session) (id : DocumentId) :
    (session.supersede id).registry.ids = session.registry.ids := by
  let next (entry : Entry) : Entry := { entry with generation := entry.generation + 1 }
  have bumped : (session.modifyEntry id next).registry.ids = session.registry.ids :=
    Registry.ids_modify (fun entry => (rfl : (next entry).id = entry.id)) _ id
  have cancelled := congrArg Prod.fst (cancelArmed_tally (session.modifyEntry id next) id)
  unfold supersede
  dsimp only
  split
  · exact cancelled.trans bumped
  · exact cancelled.trans bumped

theorem renew_ids (session : Session) (id : DocumentId) (state : DocumentState) :
    ((session.supersede id).setState id state).registry.ids = session.registry.ids :=
  (setState_ids _ id state).trans (supersede_ids session id)

theorem arm_ids (session : Session) (id : DocumentId) (source : SourceId)
    (generation : Nat) (config : WorkerConfig) :
    (session.arm id source generation config).registry.ids = session.registry.ids := by
  refine Registry.ids_modify (fun _ => ?_) _ id
  rfl

theorem applyEdit_ids (session : Session) (id : DocumentId) (chars : Nat) :
    (session.applyEdit id chars).2.registry.ids = session.registry.ids := by
  unfold applyEdit
  split
  · rfl
  · dsimp only
    split
    · exact renew_ids session id .idle
    · exact (arm_ids _ id _ _ _).trans (renew_ids session id .pending)

theorem finishEdit_ids (session : Session) (id : DocumentId) (source : SourceId)
    (frames : List Frame) :
    (session.finishEdit id source frames).registry.ids = session.registry.ids :=
  applyEdit_ids _ id _

theorem advanceState?_ids {advanced : Session} {before after : DocumentState}
    (advance : session.advanceState? run before after = some advanced) :
    advanced.registry.ids = session.registry.ids := by
  obtain ⟨_, _, _, _, _, edited, rfl⟩ := advanceState?_spec advance
  exact edited.ids

theorem advanceState?_getD_ids (session : Session) (run : Run)
    (before after : DocumentState) :
    ((session.advanceState? run before after).getD session).registry.ids =
      session.registry.ids := by
  cases advance : session.advanceState? run before after with
  | none => rfl
  | some advanced => exact advanceState?_ids advance

theorem finishFailed_ids (session : Session) (run : Run) (reason : String) :
    (session.finishFailed run reason).registry.ids = session.registry.ids :=
  (finish_ids _ run _).trans (advanceState?_getD_ids session run .computing .idle)

theorem takeSnapshot_ids (session : Session) (run : Run) :
    (session.takeSnapshot run).registry.ids = session.registry.ids := by
  obtain ⟨text, _, taken⟩ := takeSnapshot_eq session run
  rw [taken]
  split
  · exact (finish_ids _ run _).trans
      (advanceState?_getD_ids (session.modifySource run.source _) run .computing .idle)
  · rfl

theorem readSource_ids {document : Source}
    (source : session.sources[run.source]? = some document) (frames : List Frame) :
    (session.readSource run frames).registry.ids = session.registry.ids := by
  unfold readSource
  rw [source]
  dsimp only
  split
  · exact takeSnapshot_ids _ _
  · rfl

/-! ## Timers of documents that leave -/

/-- No run sleeps of a document that is not tracked any more. -/
def Clears (session after : Session) : Prop :=
  ∀ id, session.registry.contains id = true → after.registry.find? id = none →
    after.timers id = []

theorem contains_of_ids (ids : final.registry.ids = session.registry.ids) :
    final.registry.contains id = session.registry.contains id := by
  rw [Bool.eq_iff_iff, Registry.contains_iff, Registry.contains_iff, ← Registry.mem_ids_iff,
    ← Registry.mem_ids_iff, ids]

namespace Clears

theorem of_ids (ids : final.registry.ids = session.registry.ids) : session.Clears final := by
  intro id tracked untracked
  rw [← contains_of_ids ids, Registry.not_contains_iff.mpr untracked] at tracked
  cases tracked

theorem congr (ids : middle.registry.ids = session.registry.ids)
    (clears : middle.Clears final) : session.Clears final := fun id tracked untracked =>
  clears id ((contains_of_ids ids).trans tracked) untracked

theorem trans (first : session.Clears middle) (second : middle.Clears final)
    (effects : Effects (debts, middle) (after, final)) (coherent : Coherent debts middle)
    (known : ∀ id, session.registry.contains id = true → id.number < middle.nextId) :
    session.Clears final := by
  intro id tracked untracked
  cases found : middle.registry.find? id with
  | some entry => exact second id (Registry.contains_iff.mpr ⟨entry, found⟩) untracked
  | none =>
      -- It left in the first part, and no run falls asleep in the second.
      have remains := (Remains.refl (known id tracked) found).of_effects effects coherent
      exact remains.timers_eq_nil (first id tracked found)

end Clears

theorem release_contains {other : DocumentId} (distinct : Run.Distinct session.runs)
    (different : other ≠ id) :
    (session.release id).registry.contains other = session.registry.contains other := by
  by_cases tracked : session.registry.contains id = true
  · obtain ⟨_, _, _, _, find?, _, released⟩ := session.release_spec distinct tracked
    rw [released]
    exact congrArg Option.isSome ((find? other).trans (if_neg different))
  · rw [release, if_neg tracked]

theorem release_clears (watched : session.Watched) (distinct : Run.Distinct session.runs)
    (id : DocumentId) : session.Clears (session.release id) := by
  intro other tracked untracked
  by_cases here : other = id
  · subst here
    exact timers_release watched distinct tracked
  · rw [← release_contains distinct here, Registry.not_contains_iff.mpr untracked] at tracked
    cases tracked

theorem releaseAll_clears (ids : List DocumentId) (coherent : Coherent debts session)
    (watched : session.Watched) (distinct : ids.Nodup)
    (tracked : ∀ id ∈ ids, session.registry.contains id = true) :
    session.Clears (ids.foldl releaseAndTell session) := by
  induction ids generalizing session with
  | nil => exact Clears.of_ids rfl
  | cons id ids induction =>
      obtain ⟨fresh, others⟩ := List.nodup_cons.mp distinct
      have here := tracked id List.mem_cons_self
      have effect : Effect .inner (debts, session) (debts, session.releaseAndTell id) :=
        .unregister here
      have stays : ∀ other ∈ ids,
          (session.releaseAndTell id).registry.contains other = true := by
        intro other member
        have different : other ≠ id := by
          rintro rfl
          exact fresh member
        exact (release_contains coherent.distinct different).trans
          (tracked other (List.mem_cons_of_mem _ member))
      have coherentAfter := coherent.ofEffect effect
      have rest := induction coherentAfter (watched.keep effect coherent) others stays
      have first : session.Clears (session.releaseAndTell id) :=
        release_clears watched coherent.distinct id
      refine first.trans rest (releaseAll_inner ids coherentAfter others stays).effects
        coherentAfter fun other isTracked => ?_
      obtain ⟨entry, found⟩ := Registry.contains_iff.mp isTracked
      exact Nat.lt_of_lt_of_le (coherent.known found) (effect.descent coherent).nextId

/-! ## Runs that let go of their document -/

theorem mem_timers_close (distinct : Run.Distinct session.runs)
    (untracked : session.registry.find? id = none) :
    run ∈ session.close.timers id ↔ run ∈ session.timers id := by
  obtain ⟨registry, runs, _, kept, closed⟩ := session.close_spec distinct
  rw [mem_timers_iff, mem_timers_iff, closed]
  refine and_congr_left ?_
  rintro ⟨here, asleep⟩
  rw [kept.mem_iff_of_asleep asleep]
  refine and_iff_left fun isArmed => ?_
  obtain ⟨entry, found, _⟩ := isArmed_iff.mp isArmed
  rw [show run.key.1 = id from here, untracked] at found
  cases found

theorem mem_timers_endCall (distinct : Run.Distinct session.runs)
    (untracked : session.registry.find? id = none) :
    run ∈ session.endCall.timers id ↔ run ∈ session.timers id := by
  unfold endCall
  dsimp only
  split
  · exact mem_timers_close distinct untracked
  · exact Iff.rfl

theorem mem_timers_reply (distinct : Run.Distinct session.runs)
    (untracked : session.registry.find? id = none) (origin : Origin) (result : Answer) :
    run ∈ (session.reply origin id result).timers id ↔ run ∈ session.timers id := by
  unfold reply
  split
  · exact Iff.rfl
  · exact mem_timers_endCall distinct untracked
  · exact mem_timers_endCall distinct untracked

/-- A run that finds its document given up leaves the timers of the document alone. -/
theorem mem_timers_finishDropped {other : Run} (distinct : Run.Distinct session.runs)
    (member : run ∈ session.runs) (awake : run.phase.isSleeping = false) :
    other ∈ (session.finishDropped run).timers run.id ↔ other ∈ session.timers run.id := by
  obtain ⟨registry, metrics, log, _, find?, dropped⟩ := session.closeDropped_spec run
  have removed := removeRun_runs { session with registry, metrics, log } distinct run
  have untracked :
      (removeRun { session with registry, metrics, log } run).registry.find? run.id = none := by
    rw [removeRun_eq]
    exact (find? run.id).trans (if_pos rfl)
  rw [finishDropped, dropped, finish, mem_timers_reply removed.distinct untracked,
    mem_timers_iff, mem_timers_iff]
  refine and_congr_left ?_
  rintro ⟨_, asleep⟩
  rw [removed.mem_iff_of_asleep asleep]
  refine and_iff_left_of_imp fun otherMember sameKey => ?_
  rw [distinct.eq otherMember member sameKey, awake] at asleep
  cases asleep

theorem finishDropped_contains (session : Session) (different : id ≠ run.id) :
    (session.finishDropped run).registry.contains id = session.registry.contains id := by
  have ids := finish_ids (session.closeDropped run) run (.failure (.documentClosed run.id))
  refine (contains_of_ids ids).trans ?_
  obtain ⟨_, _, _, _, find?, dropped⟩ := session.closeDropped_spec run
  rw [dropped]
  exact congrArg Option.isSome ((find? id).trans (if_neg different))

theorem finishDropped_clears (coherent : Coherent debts session) (member : run ∈ session.runs)
    (awake : run.phase.isSleeping = false) (none : session.timers run.id = []) :
    session.Clears (session.finishDropped run) := by
  intro other tracked untracked
  by_cases here : other = run.id
  · subst here
    apply List.subset_nil.mp
    intro sleeper isLeft
    rw [← none]
    exact (mem_timers_finishDropped coherent.distinct member awake).mp isLeft
  · rw [← finishDropped_contains session here,
      Registry.not_contains_iff.mpr untracked] at tracked
    cases tracked

/-- A run that has yet to compute for the latest edit leaves no timer behind. -/
theorem timers_of_pending {advanced : Session} (coherent : Coherent debts session)
    (member : run ∈ session.runs) (awake : run.phase.isSleeping = false)
    (advance : session.advanceState? run .pending .computing = some advanced) :
    session.timers run.id = [] := by
  obtain ⟨entry, _, found, latest, pending, _⟩ := advanceState?_spec advance
  have agrees := coherent.agrees found (by simp [pending])
  apply List.eq_nil_iff_forall_not_mem.mpr
  intro other isLeft
  obtain ⟨otherMember, here, asleep⟩ := mem_timers_iff.mp isLeft
  -- Whatever sleeps is armed, hence the latest, which is the run that is awake.
  have sameId : other.id = entry.id := here.trans (Registry.find?_id found).symm
  have armed := agrees.sleeping other otherMember sameId asleep
  have generation := (agrees.armed _ armed).1.trans latest
  rw [coherent.distinct.eq otherMember member (Prod.ext here generation), awake] at asleep
  cases asleep

theorem beginWork_clears (coherent : Coherent debts session) (member : run ∈ session.runs)
    (awake : run.phase.isSleeping = false) (frames : List Frame) :
    session.Clears (session.beginWork run frames) := by
  unfold beginWork
  cases advance : session.advanceState? run .pending .computing with
  | none => exact .of_ids (finish_ids (session.count .discarded) run _)
  | some advanced =>
      dsimp only
      split
      case isTrue alive =>
          cases source : advanced.sources[run.source]? with
          | none =>
              rw [isAlive, source] at alive
              cases alive
          | some document =>
              exact .of_ids ((readSource_ids source frames).trans (advanceState?_ids advance))
      case isFalse =>
          rw [show advanced.finishDropped run = session.finishDropped run from
            congrArg (finish · run _) (closeDropped_of_advance advance)]
          exact finishDropped_clears coherent member awake
            (timers_of_pending coherent member awake advance)

theorem requestLock_clears (coherent : Coherent debts session) (member : run ∈ session.runs)
    (awake : run.phase.isSleeping = false) (frames : List Frame) :
    session.Clears (session.requestLock run frames) := by
  unfold requestLock
  split
  · exact .of_ids rfl
  · exact beginWork_clears coherent member awake frames

/-! ## Edits and calls -/

theorem beginEdit_clears (watched : session.Watched) (distinct : Run.Distinct session.runs)
    (id : DocumentId) (frames : List Frame) :
    session.Clears (session.beginEdit id frames) := by
  unfold beginEdit
  dsimp only
  split
  case h_1 => exact .of_ids rfl
  case h_2 entry found =>
      split
      case h_1 =>
          have watchedCounted : (session.beginCall.count .edit).Watched := watched
          exact release_clears watchedCounted distinct id
      case h_2 =>
          split
          · exact .of_ids (finishEdit_ids _ id entry.source _)
          · exact .of_ids rfl

theorem rearmNext_clears (watched : session.Watched) (distinct : Run.Distinct session.runs)
    (rest : List DocumentId) (outcomes : List (DocumentId × EditOutcome))
    (frames : List Frame) : session.Clears (session.rearmNext rest outcomes frames) := by
  cases rest with
  | nil => exact .of_ids rfl
  | cons next later => exact beginEdit_clears watched distinct next _

theorem reconfigure_clears (watched : session.Watched) (distinct : Run.Distinct session.runs)
    (settings : Settings) (ids : List DocumentId) (frames : List Frame) :
    session.Clears (session.reconfigure settings ids frames) := by
  unfold reconfigure
  dsimp only
  split
  · exact .of_ids rfl
  · have watchedAdopted : Watched { session.beginCall with settings } := watched
    exact rearmNext_clears watchedAdopted distinct ids [] _

theorem beginNow_clears (coherent : Coherent debts session) (awaited : Bool)
    (id : DocumentId) (frames : List Frame) :
    session.Clears (session.beginNow awaited id frames) := by
  unfold beginNow
  dsimp only
  split
  case h_1 =>
      exact .of_ids (congrArg Prod.fst (reply_tally session.beginCall (.call awaited) id _))
  case h_2 entry found =>
      have called := beginCall_inner debts session
      have coherentCalled := coherent.ofEffects called.effects
      have asked := coherentCalled.ofEffect (Effect.call awaited found)
      refine Clears.congr ?_ (requestLock_clears asked
        (List.mem_append_right _ (List.mem_singleton_self _)) rfl frames)
      exact renew_ids session.beginCall id .pending

/-! ## Moves -/

theorem performAtOnce?_clears {action : Action} {result : Answer × Session}
    (coherent : Coherent debts session) (watched : session.Watched)
    (performed : session.performAtOnce? action = some result) :
    session.Clears result.2 := by
  cases action with
  | replace source text | append source text =>
      cases performed
      unfold rewriteSource
      split
      · exact .of_ids rfl
      · exact .of_ids rfl
  | release source =>
      cases performed
      unfold releaseSource
      split
      · exact .of_ids rfl
      · exact .of_ids rfl
  | register source =>
      cases performed
      unfold register
      split
      · exact .of_ids rfl
      · intro id tracked untracked
        obtain ⟨entry, found⟩ := Registry.contains_iff.mp tracked
        have stays := Registry.find?_add session.registry
          ⟨⟨session.nextId⟩, source, .idle, 0, none⟩ id
        rw [found, Option.some_or] at stays
        cases stays.symm.trans untracked
  | unregister id =>
      cases performed
      unfold unregister
      split
      · exact release_clears watched coherent.distinct id
      · exact .of_ids rfl
  | sweep =>
      cases performed
      have sublist := session.droppedIds_sublist
      exact releaseAll_clears _ coherent watched (coherent.ids.sublist sublist)
        fun id member => contains_of_mem_ids (sublist.subset member)
  | shutdown =>
      rw [performAtOnce?, shutdown_eq] at performed
      cases performed
      exact releaseAll_clears _ coherent watched coherent.ids fun _ => contains_of_mem_ids
  | info | contains | settings | describe | clearCache =>
      cases performed
      exact .of_ids rfl
  | dropScheduler =>
      cases performed
      dsimp only
      split
      · exact .of_ids (congrArg Prod.fst (giveUp_tally session))
      · exact .of_ids rfl
  | edit | startNow | reconfigure => cases performed

theorem perform_clears (coherent : Coherent debts session) (watched : session.Watched)
    (action : Action) (frames : List Frame) :
    session.Clears (session.perform action frames) := by
  by_cases available : (action.needsScheduler && !session.held) = false
  · cases performed : session.performAtOnce? action with
    | some result =>
        rw [perform_of_performAtOnce? available performed]
        exact performAtOnce?_clears coherent watched performed
    | none =>
        unfold perform
        rw [if_neg (by simp [available])]
        cases action with
        | edit id => exact beginEdit_clears watched coherent.distinct id frames
        | startNow id => exact beginNow_clears coherent false id frames
        | reconfigure settings =>
            exact reconfigure_clears watched coherent.distinct settings _ frames
        | _ => cases performed
  · unfold perform
    rw [if_pos (by simpa using available)]
    exact .of_ids rfl

theorem resume_clears (watched : session.Watched) (distinct : Run.Distinct session.runs)
    (answer : Answer) (frame : Frame) (frames : List Frame) :
    session.Clears (session.resume answer frame frames) := by
  cases frame with
  | host | acted => exact .of_ids rfl
  | actions rest => cases rest <;> exact .of_ids rfl
  | call => exact .of_ids (congrArg Prod.fst (endCall_tally session))
  | measured id source => exact .of_ids (finishEdit_ids session id source frames)
  | snapshot run => exact .of_ids (takeSnapshot_ids session run)
  | rearm id rest outcomes =>
      unfold resume
      dsimp only
      split
      · exact rearmNext_clears watched distinct rest _ frames
      · exact rearmNext_clears watched distinct rest _ frames

/-- The document that a run lets go of after it has computed. -/
def droppedLate? (session : Session) : Move → Option DocumentId
  | .poll id generation _ =>
      match session.findRun? id generation with
      | some run =>
          match run.phase with
          | .computed _ _ _ => if session.isAlive run.source then none else some run.id
          | _ => none
      | none => none
  | _ => none

theorem poll_clears {generation nanoseconds : Nat} (coherent : Coherent debts session)
    (found : session.findRun? id generation = some run) (ready : run.phase.isReady = true)
    (early : session.droppedLate? (.poll id generation nanoseconds) = none) :
    session.Clears (session.poll run nanoseconds) := by
  have member := findRun?_mem found
  unfold poll
  cases phase : run.phase with
  | due => exact requestLock_clears coherent member (by rw [phase]; rfl) []
  | granted => exact beginWork_clears coherent member (by rw [phase]; rfl) []
  | failed reason => exact .of_ids (finishFailed_ids session run reason)
  | computed text highlights lookup =>
      have alive : session.isAlive run.source = true := by
        simpa [droppedLate?, found, phase] using early
      have counted := congrArg Registry.ids (session.countLookup_registry lookup nanoseconds)
      unfold conclude
      dsimp only
      rw [countLookup_isAlive, if_pos alive]
      split
      case h_1 => exact .of_ids ((finish_ids _ run _).trans counted)
      case h_2 advance =>
          exact .of_ids ((finish_ids _ run _).trans ((advanceState?_ids advance).trans counted))
  | sleeping | waiting | reading | computing =>
      rw [phase] at ready
      cases ready

/-- A move that is not the late end of a run leaves no timer of a document behind. -/
theorem clears_of_move {move : Move} (coherent : Coherent session.debts session)
    (watched : session.Watched) (moved : session.move? move = some final)
    (early : session.droppedLate? move = none) : session.Clears final := by
  cases move?_makes moved with
  | create | act | tell | wake | tick => exact .of_ids rfl
  | highlightNow _ id =>
      unfold highlightNow
      split
      · exact beginNow_clears coherent true id []
      · exact .of_ids rfl
  | proceed =>
      unfold proceed
      split
      · exact .of_ids rfl
      · exact perform_clears coherent watched _ _
      · exact .of_ids rfl
      · exact resume_clears watched coherent.distinct _ _ _
  | poll _ found ready => exact poll_clears coherent found ready early
  | @complete _ _ run text => exact .of_ids (congrArg Prod.fst (complete_tally session run text))
  | @fail _ _ run _ _ _ reason =>
      exact .of_ids (congrArg Prod.fst (breakOff_tally session run reason))

/-- A run that lets go of its document after it has computed. -/
theorem finishDropped_of_droppedLate {move : Move} (late : session.droppedLate? move = some id)
    (moved : session.move? move = some final) :
    ∃ run lookup nanoseconds, run ∈ session.runs ∧ run.id = id ∧
      run.phase.isSleeping = false ∧
      final = (session.countLookup lookup nanoseconds).finishDropped run := by
  unfold droppedLate? at late
  split at late
  case h_2 => cases late
  case h_1 other generation nanoseconds =>
    split at late
    case h_2 => cases late
    case h_1 run found =>
      split at late
      case h_2 => cases late
      case h_1 text highlights lookup computed =>
        split at late
        case isTrue => cases late
        case isFalse dead =>
          cases late
          simp only [move?, found, computed, Phase.isReady, if_true] at moved
          split at moved
          case isFalse => cases moved
          case isTrue =>
            cases moved
            refine ⟨run, lookup, nanoseconds, findRun?_mem found, rfl, by rw [computed]; rfl, ?_⟩
            unfold poll
            rw [computed]
            dsimp only
            unfold conclude
            dsimp only
            rw [countLookup_isAlive, if_neg dead]

/-- The timers of a document stay behind when a run lets go of it after it has
computed. -/
theorem mem_timers_of_droppedLate {move : Move} (coherent : Coherent debts session)
    (late : session.droppedLate? move = some id) (moved : session.move? move = some final) :
    run ∈ final.timers id ↔ run ∈ session.timers id := by
  obtain ⟨ended, lookup, nanoseconds, member, rfl, awake, rfl⟩ :=
    finishDropped_of_droppedLate late moved
  have sameRuns := session.countLookup_runs lookup nanoseconds
  rw [mem_timers_finishDropped (sameRuns ▸ coherent.distinct) (sameRuns ▸ member) awake,
    mem_timers_iff, mem_timers_iff, sameRuns]

/-- No timer stays behind when a document leaves in any other way. -/
theorem timers_of_leaving {move : Move} (coherent : Coherent session.debts session)
    (watched : session.Watched) (moved : session.move? move = some final)
    (tracked : session.registry.contains id = true)
    (untracked : final.registry.contains id = false)
    (early : session.droppedLate? move ≠ some id) : final.timers id = [] := by
  cases late : session.droppedLate? move with
  | none =>
      exact clears_of_move coherent watched moved late id tracked
        (Registry.not_contains_iff.mp untracked)
  | some other =>
      obtain ⟨run, lookup, _, _, rfl, _, rfl⟩ := finishDropped_of_droppedLate late moved
      have different : id ≠ run.id := by
        rintro rfl
        exact early late
      rw [finishDropped_contains _ different, countLookup_registry, tracked] at untracked
      cases untracked

/-! ## Documents are closed once -/

theorem closings_closeDropped (tracked : session.registry.contains run.id = true) :
    (session.closeDropped run).closings run.id = session.closings run.id + 1 := by
  rw [closeDropped_tracked tracked]
  simp [closings, note, count]
  omega

/-- The host is told, or is going to be told, of a document that leaves. -/
theorem closings_of_leaving {kind : EffectKind}
    (effect : Effect kind (debts, session) (after, final))
    (coherent : Coherent debts session) (tracked : session.registry.contains id = true)
    (untracked : final.registry.contains id = false) :
    final.closings id = session.closings id + 1 := by
  have leaves : final.registry.contains id ≠ session.registry.contains id := by
    rw [tracked, untracked]
    nofun
  have notSame : final.registry.ids ≠ session.registry.ids := fun ids =>
    leaves (contains_of_ids ids)
  -- Every effect keeps the documents, but for a registration and three that let go of one.
  cases effect with
  | aside | count | remark | rewrite | tell | reconfigure | clearCache | measure | forget
  | weaken | wake | wait | read => exact absurd rfl notSame
  | register source =>
      obtain ⟨entry, found⟩ := Registry.contains_iff.mp tracked
      have added := Registry.find?_add session.registry
        ⟨⟨session.nextId⟩, source, .idle, 0, none⟩ id
      rw [found, Option.some_or] at added
      cases added.symm.trans (Registry.not_contains_iff.mp untracked)
  | @unregister _ _ other there =>
      by_cases here : id = other
      · subst here
        obtain ⟨_, _, _, _, _, _, released⟩ :=
          session.release_spec coherent.distinct there
        unfold releaseAndTell
        rw [released]
        simp [closings, note]
        omega
      · exact absurd (release_contains coherent.distinct here) leaves
  | @abandon _ _ other there =>
      by_cases here : id = other
      · subst here
        obtain ⟨_, _, _, _, _, _, released⟩ :=
          session.release_spec coherent.distinct there
        rw [released]
        simp [closings, sendNotice]
        omega
      · exact absurd (release_contains coherent.distinct here) leaves
  | @bypass _ _ other => exact absurd (renew_ids session other .idle) notSame
  | @call _ _ other => exact absurd (renew_ids session other .pending) notSame
  | @arm _ _ other =>
      exact absurd ((arm_ids _ other _ _ _).trans (renew_ids session other .pending)) notSame
  | start member ready advance => exact absurd (advanceState?_ids advance) notSame
  | @complete _ _ run text =>
      exact absurd (congrArg Prod.fst (complete_tally session run text)) notSame
  | @breakOff _ _ run text reason =>
      exact absurd (congrArg Prod.fst (breakOff_tally session run reason)) notSame
  | @drop _ _ run =>
      by_cases here : id = run.id
      · subst here
        rw [removeRun_eq]
        exact closings_closeDropped tracked
      · obtain ⟨_, _, _, _, find?, dropped⟩ := session.closeDropped_spec run
        rw [removeRun_eq, dropped] at leaves
        exact absurd (congrArg Option.isSome ((find? id).trans (if_neg here))) leaves
  | @stale _ _ run | @overrunUntracked _ _ run | @reportUntracked _ _ run =>
      rw [removeRun_eq] at notSame
      exact absurd rfl notSame
  | @publish _ _ run text highlights lookup advanced member computed advance =>
      rw [removeRun_eq] at notSame
      exact absurd (advanceState?_ids advance) notSame
  | @overrun _ _ run | @report _ _ run =>
      rw [removeRun_eq] at notSame
      exact absurd (advanceState?_getD_ids session run .computing .idle) notSame
  | close => exact absurd (congrArg Prod.fst (close_tally session)) notSame

/-- The host is told once, or is going to be told, of a document that was tracked and has
left. -/
theorem closings_of_left {moves : List Move} (coherent : Coherent session.debts session)
    (forgets : session.Forgets) (tracked : session.registry.contains id = true)
    (reached : session.moves? moves = some final)
    (untracked : final.registry.contains id = false) : final.closings id = 1 := by
  obtain ⟨entry, found⟩ := Registry.contains_iff.mp tracked
  refine (invariant_of_moves
    (fun _ later => later.Forgets ∧ id.number < later.nextId ∧
      (later.registry.contains id = false → later.closings id = 1)) ?_ reached coherent
    ⟨forgets, coherent.known found, fun none => ?_⟩).2.2 untracked
  · rintro kind debts session after final effect coherent ⟨forgets, known, closed⟩
    have descent := effect.descent coherent
    refine ⟨forgets.keep effect coherent, Nat.lt_of_lt_of_le known descent.nextId,
      fun untracked => ?_⟩
    by_cases there : session.registry.contains id = true
    · obtain ⟨entry, found⟩ := Registry.contains_iff.mp there
      rw [closings_of_leaving effect coherent there untracked,
        closings_of_tracked coherent forgets found]
    · have gone := Bool.eq_false_iff.mpr there
      rw [closings_of_effect effect coherent (Registry.not_contains_iff.mp gone), closed gone]
  · cases none.symm.trans tracked

end LogTint.Session
