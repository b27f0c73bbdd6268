import LogTint.Proofs.Departing

/-!
# What comes of the timers of a document that was released

After a document has left the registry, only runs of it that were awake go on, unless
a run that had computed let go of it while another one slept.  That one sleeps on, wakes
and is counted.
-/

namespace LogTint

/-- The document that a frame goes on with. -/
def Frame.document? : Frame → Option DocumentId
  | .measured id _ => some id
  | .snapshot run => some run.id
  | .rearm _ rest _ => rest.head?
  | .host | .call | .acted _ | .actions _ => none

namespace Session

variable {session after : Session} {id : DocumentId}

/-- The documents that an action is carried out for. -/
def subjects (session : Session) : Action → List DocumentId
  | .register _ => [⟨session.nextId⟩]
  | .edit id | .startNow id => [id]
  | .reconfigure _ => session.registry.ids.head?.toList
  | action => session.releases action

/-- The documents that a move is made for. -/
def served (session : Session) : Move → List DocumentId
  | .highlightNow id | .wake id _ | .poll id _ _ | .complete id _ | .fail id _ _ => [id]
  | .proceed =>
      match session.control with
      | .perform action _ => session.subjects action
      | .answer _ (frame :: _) => frame.document?.toList
      | _ => []
  | .create _ | .act _ | .tell _ | .tick _ => []

/-- The run whose turn a move is. -/
def turn? (session : Session) : Move → Option (DocumentId × Nat)
  | .wake id generation | .poll id generation _ | .complete id generation
  | .fail id generation _ => some (id, generation)
  | .proceed =>
      match session.control with
      | .answer _ (.snapshot run :: _) => some run.key
      | _ => none
  | .create _ | .act _ | .highlightNow _ | .tell _ | .tick _ => none

/-! ## Counters -/

theorem ne_of_tracked {other : DocumentId} (untracked : session.registry.find? id = none)
    (tracked : session.registry.contains other = true) : other ≠ id := by
  rintro rfl
  rw [Registry.not_contains_iff.mpr untracked] at tracked
  cases tracked

/-- An edit of a document that is not tracked is not counted. -/
theorem beginEdit_metrics (untracked : session.registry.find? id = none)
    (frames : List Frame) : (session.beginEdit id frames).metrics = session.metrics := by
  unfold beginEdit
  dsimp only
  rw [show session.beginCall.registry.find? id = none from untracked]
  rfl

theorem beginNow_metrics (untracked : session.registry.find? id = none) (awaited : Bool)
    (frames : List Frame) :
    (session.beginNow awaited id frames).metrics = session.metrics := by
  unfold beginNow
  dsimp only
  rw [show session.beginCall.registry.find? id = none from untracked]
  exact congrArg Prod.snd (reply_tally session.beginCall _ id _)

theorem finishEdit_metrics (untracked : session.registry.find? id = none)
    (source : SourceId) (frames : List Frame) :
    (session.finishEdit id source frames).metrics = session.metrics := by
  unfold finishEdit applyEdit
  rw [show (session.modifySource source _).registry.find? id = none from untracked]
  rfl

theorem rearmNext_metrics {rest : List DocumentId} {outcomes : List (DocumentId × EditOutcome)}
    {frames : List Frame} (untracked : session.registry.find? id = none)
    (changed : (session.rearmNext rest outcomes frames).metrics ≠ session.metrics) :
    ∃ other ∈ rest.head?.toList, other ≠ id := by
  cases rest with
  | nil => exact absurd rfl changed
  | cons next later =>
      refine ⟨next, List.mem_singleton_self _, ?_⟩
      rintro rfl
      exact changed (beginEdit_metrics untracked _)

theorem performAtOnce?_metrics {action : Action} {result : Answer × Session}
    (known : id.number < session.nextId)
    (untracked : session.registry.find? id = none)
    (performed : session.performAtOnce? action = some result)
    (changed : result.2.metrics ≠ session.metrics) :
    ∃ other ∈ session.subjects action, other ≠ id := by
  cases action with
  | replace source text | append source text =>
      cases performed
      unfold rewriteSource at changed
      split at changed <;> exact absurd rfl changed
  | release source =>
      cases performed
      unfold releaseSource at changed
      split at changed <;> exact absurd rfl changed
  | register source =>
      refine ⟨⟨session.nextId⟩, List.mem_singleton_self _, ?_⟩
      rintro rfl
      exact Nat.lt_irrefl _ known
  | unregister other =>
      cases performed
      unfold unregister at changed
      split at changed
      case isTrue tracked =>
          exact ⟨other, List.mem_singleton_self _, ne_of_tracked untracked tracked⟩
      case isFalse => exact absurd rfl changed
  | sweep =>
      cases performed
      cases dropped : session.droppedIds with
      | nil => exact absurd (by rw [sweep, dropped]; rfl) changed
      | cons other others =>
          have member : other ∈ session.droppedIds := dropped ▸ List.mem_cons_self
          exact ⟨other, member, ne_of_tracked untracked
            (contains_of_mem_ids (session.droppedIds_sublist.subset member))⟩
  | shutdown =>
      rw [performAtOnce?, shutdown_eq] at performed
      cases performed
      cases tracked : session.registry.ids with
      | nil => exact absurd (by rw [tracked]; rfl) changed
      | cons other others =>
          have member : other ∈ session.registry.ids := tracked ▸ List.mem_cons_self
          exact ⟨other, member, ne_of_tracked untracked (contains_of_mem_ids member)⟩
  | info | contains | settings | describe | clearCache =>
      cases performed
      exact absurd rfl changed
  | dropScheduler =>
      cases performed
      dsimp only at changed
      split at changed
      · exact absurd (congrArg Prod.snd (giveUp_tally session)) changed
      · exact absurd rfl changed
  | edit | startNow | reconfigure => cases performed

theorem perform_metrics {action : Action} {frames : List Frame}
    (known : id.number < session.nextId)
    (untracked : session.registry.find? id = none)
    (changed : (session.perform action frames).metrics ≠ session.metrics) :
    ∃ other ∈ session.subjects action, other ≠ id := by
  by_cases available : (action.needsScheduler && !session.held) = false
  · cases performed : session.performAtOnce? action with
    | some result =>
        rw [perform_of_performAtOnce? available performed] at changed
        exact performAtOnce?_metrics known untracked performed changed
    | none =>
        unfold perform at changed
        rw [if_neg (by simp [available])] at changed
        cases action with
        | edit other =>
            refine ⟨other, List.mem_singleton_self _, ?_⟩
            rintro rfl
            exact changed (beginEdit_metrics untracked frames)
        | startNow other =>
            refine ⟨other, List.mem_singleton_self _, ?_⟩
            rintro rfl
            exact changed (beginNow_metrics untracked false frames)
        | reconfigure settings =>
            dsimp only at changed
            unfold reconfigure at changed
            dsimp only at changed
            split at changed
            · exact absurd rfl changed
            · have untrackedLater :
                  { session.beginCall with settings }.registry.find? id = none := untracked
              exact rearmNext_metrics untrackedLater changed
        | _ => cases performed
  · unfold perform at changed
    rw [if_pos (by simpa using available)] at changed
    exact absurd rfl changed

theorem resume_metrics {answer : Answer} {frame : Frame} {frames : List Frame}
    (waiting : session.control = .answer answer (frame :: frames))
    (coherent : Coherent session.debts session)
    (untracked : session.registry.find? id = none)
    (changed : (session.resume answer frame frames).metrics ≠ session.metrics) :
    (∃ other ∈ frame.document?.toList, other ≠ id) ∨
      ∃ run ∈ session.runs, run.id = id ∧ session.turn? .proceed = some run.key := by
  cases frame with
  | host | acted => exact absurd rfl changed
  | actions rest => cases rest <;> exact absurd rfl changed
  | call => exact absurd (congrArg Prod.snd (endCall_tally session)) changed
  | measured other source =>
      refine .inl ⟨other, List.mem_singleton_self _, ?_⟩
      rintro rfl
      exact changed (finishEdit_metrics untracked source frames)
  | snapshot run =>
      by_cases here : run.id = id
      · rw [debts_of_answer waiting] at coherent
        have member := (coherent.texts run List.mem_cons_self).1
        exact .inr ⟨run, member, here, by rw [turn?, waiting]⟩
      · exact .inl ⟨run.id, List.mem_singleton_self _, here⟩
  | rearm other rest outcomes =>
      unfold resume at changed
      dsimp only at changed
      split at changed
      · exact .inl (rearmNext_metrics untracked changed)
      · exact .inl (rearmNext_metrics untracked changed)

/-- When a document is not tracked, the counters change for other documents or in the
turn of one of its runs. -/
theorem metrics_of_move {move : Move} (coherent : Coherent session.debts session)
    (known : id.number < session.nextId) (untracked : session.registry.find? id = none)
    (moved : session.move? move = some after) (changed : after.metrics ≠ session.metrics) :
    (∃ other ∈ session.served move, other ≠ id) ∨
      ∃ run ∈ session.runs, run.id = id ∧ session.turn? move = some run.key := by
  cases move with
  | create source | act action | tell notice | tick time =>
      obtain ⟨_, same⟩ := Option.ite_none_right_eq_some.mp moved
      cases same
      exact absurd rfl changed
  | highlightNow other =>
      obtain ⟨_, same⟩ := Option.ite_none_right_eq_some.mp moved
      cases same
      refine .inl ⟨other, List.mem_singleton_self _, ?_⟩
      rintro rfl
      unfold highlightNow at changed
      split at changed
      · exact changed (beginNow_metrics untracked true [])
      · exact absurd rfl changed
  | proceed =>
      obtain ⟨_, rfl⟩ := proceed_of_move moved
      unfold served
      unfold proceed at changed
      split at changed
      case h_1 => exact absurd rfl changed
      case h_2 action frames waiting =>
          rw [waiting]
          exact .inl (perform_metrics known untracked changed)
      case h_3 => exact absurd rfl changed
      case h_4 answer frame frames waiting =>
          rw [waiting]
          exact resume_metrics waiting coherent untracked changed
  | wake other generation | poll other generation | complete other generation
  | fail other generation =>
      by_cases here : other = id
      · subst here
        cases found : session.findRun? other generation with
        | none => simp [move?, found] at moved
        | some run =>
            have key := findRun?_key found
            exact .inr
              ⟨run, findRun?_mem found, congrArg Prod.fst key, congrArg some key.symm⟩
      · exact .inl ⟨other, List.mem_singleton_self _, here⟩

/-! ## Releases -/

/-- Nothing comes of the timers of a document that has left the registry.  No run of it
sleeps, the runs that it still has were awake, and the counters change for other
documents or in the turns of those runs only. -/
structure ReleasesTimers (session : Session) (id : DocumentId) : Prop where
  timers : ∀ {moves later}, session.moves? moves = some later → later.timers id = []
  runs : ∀ {moves later run}, session.moves? moves = some later → run ∈ later.runs →
    run.id = id → ∃ earlier ∈ session.runs, earlier.key = run.key ∧
      earlier.phase.isSleeping = false
  counters : ∀ {moves before move later}, session.moves? moves = some before →
    before.move? move = some later → later.metrics ≠ before.metrics →
      (∃ other ∈ before.served move, other ≠ id) ∨
        ∃ run ∈ session.runs, run.id = id ∧ run.phase.isSleeping = false ∧
          before.turn? move = some run.key

theorem releasesTimers (coherent : Coherent session.debts session)
    (known : id.number < session.nextId) (untracked : session.registry.find? id = none)
    (none : session.timers id = []) : session.ReleasesTimers id := by
  have awake : ∀ run ∈ session.runs, run.id = id → run.phase.isSleeping = false := by
    intro run member here
    apply Bool.eq_false_iff.mpr
    intro asleep
    have left := mem_timers_iff.mpr ⟨member, here, asleep⟩
    rw [none] at left
    cases left
  have remains : ∀ {moves later}, session.moves? moves = some later →
      Remains session id later := fun reached =>
    (Remains.refl known untracked).of_moves reached coherent
  have goesBack : ∀ {moves later run}, session.moves? moves = some later →
      run ∈ later.runs → run.id = id →
        ∃ earlier ∈ session.runs, earlier.key = run.key ∧
          earlier.phase.isSleeping = false := by
    intro moves later run reached member here
    obtain ⟨earlier, earlierMember, sameKey⟩ := (remains reached).runs run member here
    exact ⟨earlier, earlierMember, sameKey,
      awake earlier earlierMember ((congrArg Prod.fst sameKey).trans here)⟩
  refine ⟨fun reached => (remains reached).timers_eq_nil none, goesBack, ?_⟩
  intro moves before move later reached moved changed
  have rest := remains reached
  refine (metrics_of_move (coherent_of_moves reached coherent) rest.known rest.untracked
    moved changed).imp_right ?_
  rintro ⟨run, member, here, turn⟩
  obtain ⟨earlier, earlierMember, sameKey, isAwake⟩ := goesBack reached member here
  exact ⟨earlier, earlierMember, (congrArg Prod.fst sameKey).trans here, isAwake,
    turn.trans (congrArg some sameKey.symm)⟩

/-- However a document leaves the registry, its timers are released with it, unless a
run lets go of it after it has computed.  Its timers then stay as they are. -/
theorem releasesTimers_iff {settings : Settings} {cache : Option Cache}
    {moves : List Move} {move : Move}
    (reached : (initial settings cache).moves? moves = some session)
    (moved : session.move? move = some after)
    (tracked : session.registry.contains id = true)
    (left : after.registry.contains id = false) :
    (after.ReleasesTimers id ↔
      (session.droppedLate? move = some id → session.timers id = [])) ∧
      (session.droppedLate? move = some id →
        ∀ run, run ∈ after.timers id ↔ run ∈ session.timers id) := by
  have begun := Coherent.initial settings cache
  have coherent := coherent_of_moves reached begun
  have watched := watched_of_moves reached begun (.initial settings cache)
  have untracked := Registry.not_contains_iff.mp left
  have effects := effects_of_move coherent moved
  have known : id.number < after.nextId := by
    obtain ⟨entry, found⟩ := Registry.contains_iff.mp tracked
    have grown := effects.induct
      (fun debts later => Coherent debts later ∧ session.nextId ≤ later.nextId)
      (fun effect ⟨coherent, grown⟩ =>
        ⟨coherent.ofEffect effect, Nat.le_trans grown (effect.descent coherent).nextId⟩)
      ⟨coherent, Nat.le_refl _⟩
    exact Nat.lt_of_lt_of_le (coherent.known found) grown.2
  have stay : session.droppedLate? move = some id →
      ∀ run, run ∈ after.timers id ↔ run ∈ session.timers id :=
    fun late _ => mem_timers_of_droppedLate coherent late moved
  have left_iff : session.droppedLate? move = some id →
      (after.timers id = [] ↔ session.timers id = []) := by
    intro late
    simp only [List.eq_nil_iff_forall_not_mem, stay late]
  refine ⟨⟨fun releases late => ?_, fun settled => ?_⟩, stay⟩
  · exact (left_iff late).mp (releases.timers (show after.moves? [] = some after from rfl))
  · refine releasesTimers (coherent.ofEffects effects) known untracked ?_
    by_cases late : session.droppedLate? move = some id
    · exact (left_iff late).mpr (settled late)
    · exact timers_of_leaving coherent watched moved tracked left late

/-- A document that is edited and given up while it is read. -/
def parting : Source :=
  { Source.quiet ['a', 'b'] true .counted with onSnapshot := [[.edit ⟨1⟩, .release 0]] }

/-- A host calls for the highlights of a document that is edited and given up while it
is read, and they are computed. -/
def partingMoves : List Move :=
  [.create parting, .act (.register 0)] ++ List.replicate 3 .proceed ++
    [.highlightNow ⟨1⟩] ++ List.replicate 10 .proceed ++ [.complete ⟨1⟩ 1]

/-- The run that the edit armed sleeps on, wakes and is counted. -/
theorem timers_left_behind :
    ∃ session after later, (initial .standard none).moves? partingMoves = some session ∧
      session.move? (.poll ⟨1⟩ 1 0) = some after ∧
      session.registry.contains ⟨1⟩ = true ∧ after.registry.contains ⟨1⟩ = false ∧
      (after.timers ⟨1⟩).map Run.generation = [2] ∧
      after.moves? [.tick 200, .wake ⟨1⟩ 2, .poll ⟨1⟩ 2 0] = some later ∧
      after.metrics.discarded = 1 ∧ later.metrics.discarded = 2 ∧
      ¬after.ReleasesTimers ⟨1⟩ := by
  refine ⟨_, _, _, rfl, rfl, rfl, rfl, rfl, rfl, rfl, rfl, fun releases => ?_⟩
  cases releases.timers (show moves? _ [] = some _ from rfl)

theorem releasesTimers_iff_of_unregister :
    ∃ session after, (initial .standard none).moves?
        (firstEdit ['a'] ++ [.act (.unregister ⟨1⟩)]) = some session ∧
      session.move? .proceed = some after ∧
      session.registry.contains ⟨1⟩ = true ∧ after.registry.contains ⟨1⟩ = false ∧
      (session.timers ⟨1⟩).map Run.generation = [1] ∧ after.ReleasesTimers ⟨1⟩ := by
  have reached : (initial .standard none).moves?
      (firstEdit ['a'] ++ [.act (.unregister ⟨1⟩)]) = some _ := rfl
  refine ⟨_, _, reached, rfl, rfl, rfl, rfl, ?_⟩
  refine (releasesTimers_iff reached (?_ : move? _ .proceed = some _) ?_ ?_).1.mpr ?_
  · rfl
  · rfl
  · rfl
  · exact fun late => by cases late

end Session

end LogTint
