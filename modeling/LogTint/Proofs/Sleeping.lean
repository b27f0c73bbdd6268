import LogTint.Proofs.Reconfiguring
import LogTint.Proofs.Silence

/-!
# Runs that sleep

A run that sleeps either is armed, so that whoever releases its document cancels it, or
has slept before.  So the runs of a tracked document that sleep are armed throughout,
and once a document is not tracked no run of it falls asleep and none is added.
-/

namespace LogTint

/-- What holds of a run that sleeps after an effect. -/
inductive Run.SleepsOn (session final : Session) (run : Run) : Prop where
  | armed (isArmed : final.IsArmed run.key)
  /-- It has slept before, and if it was armed then its document was let go of. -/
  | before (member : run ∈ session.runs)
      (released : session.IsArmed run.key → final.registry.find? run.id = none)

namespace Run

variable {session final : Session} {run : Run} {id : DocumentId}

theorem Kept.mem_of_asleep {keep : DocumentId × Nat → Prop} {runs others : List Run}
    (kept : Run.Kept keep runs others) (member : run ∈ others)
    (asleep : run.phase.isSleeping = true) : run ∈ runs ∧ keep run.key := by
  obtain ⟨earlier, earlierMember, keeps, continues⟩ := kept.origin run member
  have slept : earlier.phase.isSleeping = true := continues.isSleeping ▸ asleep
  have same : run = earlier := by
    apply continues.eq
    intro waiting
    rw [waiting] at slept
    cases slept
  rw [same]
  exact ⟨earlierMember, keeps⟩

theorem Kept.mem_iff_of_asleep {keep : DocumentId × Nat → Prop} {runs others : List Run}
    (kept : Run.Kept keep runs others) (asleep : run.phase.isSleeping = true) :
    run ∈ others ↔ run ∈ runs ∧ keep run.key := by
  refine ⟨fun member => kept.mem_of_asleep member asleep, ?_⟩
  rintro ⟨member, keeps⟩
  obtain ⟨later, laterMember, continues⟩ := kept.lasts run member keeps
  have same : later = run := by
    apply continues.eq
    intro waiting
    rw [waiting] at asleep
    cases asleep
  rwa [same] at laterMember

/-- A run that has just joined awake is not the one that sleeps. -/
theorem mem_of_join {others : List Run} {joined : Run} (member : run ∈ others ++ [joined])
    (asleep : run.phase.isSleeping = true) (awake : joined.phase.isSleeping = false) :
    run ∈ others := by
  refine (List.mem_append.mp member).resolve_right fun last => ?_
  rw [List.mem_singleton.mp last, awake] at asleep
  cases asleep

namespace SleepsOn

theorem of_stays (member : run ∈ session.runs)
    (stays : session.IsArmed run.key →
      final.IsArmed run.key ∨ final.registry.find? run.id = none) :
    run.SleepsOn session final := by
  by_cases isArmed : session.IsArmed run.key
  · rcases stays isArmed with later | released
    · exact .armed later
    · exact .before member fun _ => released
  · exact .before member fun armed => absurd armed isArmed

/-- The entry of the document is as before. -/
theorem of_find? (member : run ∈ session.runs)
    (same : final.registry.find? run.id = session.registry.find? run.id) :
    run.SleepsOn session final := by
  refine of_stays member fun isArmed => .inl ?_
  unfold Session.IsArmed at isArmed ⊢
  exact (congrArg (·.bind (·.armed)) same).trans isArmed

theorem of_erased (member : run ∈ session.runs)
    (find? : ∀ other, final.registry.find? other =
      if other = id then none else session.registry.find? other) :
    run.SleepsOn session final := by
  by_cases here : run.id = id
  · refine .before member fun _ => ?_
    rw [find?, if_pos here]
  · exact of_find? member ((find? run.id).trans (if_neg here))

/-- The entry of another document is changed, or the run was not armed. -/
theorem of_edited {change : DocumentId → Entry → Entry}
    (member : run ∈ session.runs)
    (edited : Registry.Edited change session.registry final.registry)
    (others : ∀ other entry, other ≠ id → change other entry = entry)
    (unarmed : run.id = id → ¬session.IsArmed run.key) : run.SleepsOn session final := by
  by_cases here : run.id = id
  · exact .before member fun isArmed => absurd isArmed (unarmed here)
  · refine of_find? member ?_
    rw [edited.find?]
    cases session.registry.find? run.id with
    | none => rfl
    | some entry => exact congrArg some (others run.id entry here)

/-- A document may become idle and a run end. -/
theorem of_settled {ended : Run} {runs : List Run} {metrics : Metrics}
    {log : List (Nat × Event)} (member : run ∈ session.runs) :
    run.SleepsOn session
      { (session.advanceState? ended .computing .idle).getD session with
        runs, metrics, log } := by
  cases advance : session.advanceState? ended .computing .idle with
  | none => exact of_find? member rfl
  | some advanced =>
      obtain ⟨_, registry, _, _, _, edited, rfl⟩ := Session.advanceState?_spec advance
      refine of_stays member fun isArmed => .inl ?_
      obtain ⟨entry, found, armed⟩ := Session.isArmed_iff.mp isArmed
      refine Session.isArmed_iff.mpr ⟨_, edited.find?_some found, ?_⟩
      by_cases here : run.id = ended.id <;> simpa [Run.key, here, Entry.advanced] using armed

end SleepsOn

end Run

namespace Session

variable {run : Run}

theorem mem_of_mem_removeRun {session : Session} {ended : Run}
    (member : run ∈ (session.removeRun ended).runs)
    (distinct : Run.Distinct session.runs)
    (asleep : run.phase.isSleeping = true) : run ∈ session.runs :=
  ((session.removeRun_runs distinct ended).mem_of_asleep member asleep).1

theorem mem_of_mem_enterPhase {session : Session} {entering : Run} {phase : Phase}
    (member : run ∈ (session.enterPhase entering phase).runs)
    (distinct : Run.Distinct session.runs)
    (asleep : run.phase.isSleeping = true) (awake : phase.isSleeping = false) :
    run ∈ session.runs ∧ run.key ≠ entering.key := by
  obtain ⟨others, kept, runs⟩ := session.enterPhase_runs distinct entering phase
  rw [runs] at member
  exact kept.mem_of_asleep (Run.mem_of_join member asleep awake) asleep

end Session

/-- A run that sleeps after an effect is armed, or has slept before. -/
theorem Effect.sleepsOn {kind : EffectKind} {debts after : Debts}
    {session final : Session} (effect : Effect kind (debts, session) (after, final))
    (coherent : Coherent debts session) {run : Run} (member : run ∈ final.runs)
    (asleep : run.phase.isSleeping = true) : run.SleepsOn session final := by
  have distinct := coherent.distinct
  cases effect with
  | aside | count | remark | rewrite | tell | reconfigure | clearCache | measure
  | forget | weaken =>
      exact .of_find? member rfl
  | register source held =>
      refine .of_stays member fun isArmed => .inl ?_
      obtain ⟨entry, found, armed⟩ := Session.isArmed_iff.mp isArmed
      refine Session.isArmed_iff.mpr ⟨entry, ?_, armed⟩
      exact (Registry.find?_add _ _ _).trans (by rw [found]; rfl)
  | unregister tracked =>
      obtain ⟨registry, runs, metrics, _, find?, kept, released⟩ :=
        session.release_spec distinct tracked
      unfold Session.releaseAndTell at member ⊢
      rw [released] at member ⊢
      exact .of_erased (kept.mem_of_asleep member asleep).1 find?
  | abandon tracked =>
      obtain ⟨registry, runs, metrics, _, find?, kept, released⟩ :=
        session.release_spec distinct tracked
      rw [released] at member ⊢
      exact .of_erased (kept.mem_of_asleep member asleep).1 find?
  | @bypass _ _ id entry document found =>
      obtain ⟨registry, runs, metrics, edited, kept, renewed⟩ :=
        session.renew_spec distinct id .idle
      rw [renewed] at member ⊢
      obtain ⟨earlier, keeps⟩ := kept.mem_of_asleep member asleep
      exact .of_edited earlier edited (fun _ _ different => if_neg different)
        fun here isArmed => keeps ⟨here, isArmed⟩
  | @call _ _ id entry awaited found =>
      obtain ⟨registry, runs, metrics, edited, kept, renewed⟩ :=
        session.renew_spec distinct id .pending
      rw [renewed] at member ⊢
      obtain ⟨earlier, keeps⟩ :=
        kept.mem_of_asleep (Run.mem_of_join member asleep rfl) asleep
      exact .of_edited earlier edited (fun _ _ different => if_neg different)
        fun here isArmed => keeps ⟨here, isArmed⟩
  | @arm _ _ id entry found =>
      obtain ⟨registry, runs, metrics, edited, kept, renewed⟩ :=
        session.renew_spec distinct id .pending
      rw [renewed] at member ⊢
      have armed := Registry.edited_modify
        (fun renewed => { renewed with armed := some (entry.generation + 1) })
        (fun _ => rfl) registry id
      rcases List.mem_append.mp member with others | last
      · obtain ⟨earlier, keeps⟩ := kept.mem_of_asleep others asleep
        refine .of_edited earlier (edited.trans armed) ?_
          fun here isArmed => keeps ⟨here, isArmed⟩
        intro other entry different
        rw [if_neg different, if_neg different]
      · rw [List.mem_singleton.mp last]
        refine .armed (Session.isArmed_iff.mpr ⟨_, (edited.trans armed).find?_some found, ?_⟩)
        simp only [Run.key, if_true]
  | @wake _ _ entering | @wait _ _ entering | @read _ _ entering =>
      exact .of_find? (Session.mem_of_mem_enterPhase member distinct asleep rfl).1 rfl
  | @start _ _ entering advanced isRun ready advance alive =>
      obtain ⟨entry, registry, found, latest, pending, edited, rfl⟩ :=
        Session.advanceState?_spec advance
      obtain ⟨earlier, different⟩ :=
        Session.mem_of_mem_enterPhase member distinct asleep rfl
      refine .of_edited earlier edited (fun _ _ different => if_neg different)
        fun here isArmed => different ?_
      -- Only the latest run of a document is armed, and that one begins to read.
      obtain ⟨other, foundOther, armed⟩ := Session.isArmed_iff.mp isArmed
      rw [show run.key.1 = entering.id from here] at foundOther
      cases found.symm.trans foundOther
      have agrees := coherent.agrees found (by simp [pending])
      have generation := (agrees.armed _ armed).1
      exact Prod.ext here (generation.trans latest)
  | @complete _ _ ended text =>
      obtain ⟨others, cache, kept, _, completed⟩ :=
        session.complete_spec distinct ended text
      rw [completed] at member ⊢
      have isOther := Run.mem_of_join member asleep rfl
      exact .of_find? (kept.mem_of_asleep isOther asleep).1 rfl
  | @breakOff _ _ ended text reason =>
      obtain ⟨others, kept, broken⟩ := session.breakOff_spec distinct ended reason
      rw [broken] at member ⊢
      have isOther := Run.mem_of_join member asleep rfl
      exact .of_find? (kept.mem_of_asleep isOther asleep).1 rfl
  | stale | overrunUntracked | reportUntracked =>
      have earlier := Session.mem_of_mem_removeRun member distinct asleep
      rw [Session.removeRun_eq]
      exact .of_find? earlier rfl
  | @overrun _ _ ended | @report _ _ ended =>
      have sameRuns := session.advanceState?_getD_runs ended .computing .idle
      have earlier := Session.mem_of_mem_removeRun member (sameRuns ▸ distinct) asleep
      rw [Session.removeRun_eq]
      exact .of_settled (sameRuns ▸ earlier)
  | @publish _ _ ended text highlights lookup advanced isRun computed advance alive =>
      have settled :
          (session.advanceState? ended .computing .idle).getD session = advanced := by
        rw [advance, Option.getD_some]
      subst settled
      have sameRuns := session.advanceState?_getD_runs ended .computing .idle
      have earlier := Session.mem_of_mem_removeRun member (sameRuns ▸ distinct) asleep
      rw [Session.removeRun_eq]
      exact .of_settled (sameRuns ▸ earlier)
  | @drop _ _ ended =>
      obtain ⟨registry, metrics, log, _, find?, dropped⟩ :=
        Session.closeDropped_spec session ended
      rw [dropped] at member ⊢
      have earlier := Session.mem_of_mem_removeRun member distinct asleep
      rw [Session.removeRun_eq]
      exact .of_erased earlier find?
  | close =>
      obtain ⟨registry, runs, _, kept, closed⟩ := session.close_spec distinct
      rw [closed] at member ⊢
      obtain ⟨earlier, unarmed⟩ := kept.mem_of_asleep member asleep
      exact .before earlier fun isArmed => absurd isArmed unarmed

namespace Session

variable {debts after : Debts} {session middle final base : Session} {kind : EffectKind}
  {run : Run} {id : DocumentId}

theorem mem_timers_iff :
    run ∈ session.timers id ↔
      run ∈ session.runs ∧ run.id = id ∧ run.phase.isSleeping = true := by
  simp [timers, runsOf, and_comm, and_left_comm]

/-! ## Tracked documents -/

/-- The runs of tracked documents that sleep are armed. -/
def Watched (session : Session) : Prop :=
  ∀ run ∈ session.runs, run.phase.isSleeping = true →
    session.registry.contains run.id = true → session.IsArmed run.key

theorem Watched.keep (watched : session.Watched)
    (effect : Effect kind (debts, session) (after, final))
    (coherent : Coherent debts session) : final.Watched := by
  intro run member asleep tracked
  cases effect.sleepsOn coherent member asleep with
  | armed isArmed => exact isArmed
  | before earlier released =>
      obtain ⟨entry, found⟩ := Registry.contains_iff.mp tracked
      have number := coherent.numbered run earlier
      rcases (effect.descent coherent).entries found with new | ⟨entryBefore, foundBefore, _⟩
      · omega
      · have trackedBefore := Registry.contains_iff.mpr ⟨entryBefore, foundBefore⟩
        have untracked := released (watched run earlier asleep trackedBefore)
        cases found.symm.trans untracked

theorem Watched.initial (settings : Settings) (cache : Option Cache) :
    (initial settings cache).Watched :=
  List.forall_mem_nil _

theorem watched_of_moves {moves : List Move} (reached : session.moves? moves = some final)
    (coherent : Coherent session.debts session) (watched : session.Watched) :
    final.Watched :=
  invariant_of_moves (fun _ session => session.Watched)
    (fun effect coherent watched => watched.keep effect coherent) reached coherent watched

/-- No run of a document sleeps once the document is released. -/
theorem timers_release (watched : session.Watched) (distinct : Run.Distinct session.runs)
    (tracked : session.registry.contains id = true) :
    (session.release id).timers id = [] := by
  obtain ⟨registry, runs, metrics, _, find?, kept, released⟩ :=
    session.release_spec distinct tracked
  rw [released]
  apply List.eq_nil_iff_forall_not_mem.mpr
  intro run member
  obtain ⟨inRuns, here, asleep⟩ := mem_timers_iff.mp member
  obtain ⟨earlier, keeps⟩ := kept.mem_of_asleep inRuns asleep
  subst here
  exact keeps ⟨rfl, watched run earlier asleep tracked⟩

/-! ## Documents that are not tracked any more -/

/-- No run falls asleep of a document that an effect leaves untracked. -/
theorem timers_subset (effect : Effect kind (debts, session) (after, final))
    (coherent : Coherent debts session) (untracked : final.registry.find? id = none) :
    final.timers id ⊆ session.timers id := by
  intro run member
  obtain ⟨inRuns, here, asleep⟩ := mem_timers_iff.mp member
  cases effect.sleepsOn coherent inRuns asleep with
  | armed isArmed =>
      obtain ⟨entry, found, _⟩ := isArmed_iff.mp isArmed
      rw [show run.key.1 = id from here, untracked] at found
      cases found
  | before earlier => exact mem_timers_iff.mpr ⟨earlier, here, asleep⟩

/-- What is left of a document that is not tracked goes back to what was left of it in
an earlier session. -/
structure Remains (base : Session) (id : DocumentId) (session : Session) : Prop where
  known : id.number < session.nextId
  untracked : session.registry.find? id = none
  runs : ∀ run ∈ session.runs, run.id = id → ∃ earlier ∈ base.runs, earlier.key = run.key
  timers : session.timers id ⊆ base.timers id

namespace Remains

theorem refl (known : id.number < session.nextId)
    (untracked : session.registry.find? id = none) : Remains session id session where
  known := known
  untracked := untracked
  runs run member _ := ⟨run, member, rfl⟩
  timers := List.Subset.refl _

theorem keep (remains : Remains base id session)
    (effect : Effect kind (debts, session) (after, final))
    (coherent : Coherent debts session) : Remains base id final := by
  have descent := effect.descent coherent
  have untracked := untracked_of_descent descent remains.known remains.untracked
  refine ⟨Nat.lt_of_lt_of_le remains.known descent.nextId, untracked, ?_,
    List.Subset.trans (timers_subset effect coherent untracked) remains.timers⟩
  intro run member here
  have goesBack : ∀ earlier ∈ session.runs, run.key = earlier.key →
      ∃ first ∈ base.runs, first.key = run.key := by
    intro earlier earlierMember sameKey
    have sameId : earlier.id = id := (congrArg Prod.fst sameKey).symm.trans here
    obtain ⟨first, firstMember, firstKey⟩ := remains.runs earlier earlierMember sameId
    exact ⟨first, firstMember, firstKey.trans sameKey.symm⟩
  cases descent.runs run member with
  | kept earlierMember key => exact goesBack _ earlierMember key
  | read earlierMember key => exact goesBack _ earlierMember key
  | computed earlierMember key => exact goesBack _ earlierMember key
  | broken earlierMember key => exact goesBack _ earlierMember key
  | fresh found =>
      rw [here, remains.untracked] at found
      cases found

theorem of_effects (remains : Remains base id session)
    (effects : Effects (debts, session) (after, final))
    (coherent : Coherent debts session) : Remains base id final :=
  (effects.induct
    (fun debts session => Coherent debts session ∧ Remains base id session)
    (fun effect both => ⟨both.1.ofEffect effect, both.2.keep effect both.1⟩)
    ⟨coherent, remains⟩).2

theorem of_moves {moves : List Move} (remains : Remains base id session)
    (reached : session.moves? moves = some final)
    (coherent : Coherent session.debts session) : Remains base id final :=
  invariant_of_moves (fun _ session => Remains base id session)
    (fun effect coherent remains => remains.keep effect coherent) reached coherent remains

theorem timers_eq_nil (remains : Remains base id session) (none : base.timers id = []) :
    session.timers id = [] :=
  List.subset_nil.mp (none ▸ remains.timers)

end Remains

end Session

end LogTint
