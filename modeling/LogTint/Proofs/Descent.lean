import LogTint.Proofs.CoherentEffects

/-!
# Where entries and runs come from

After an effect every entry goes back to an entry of before or is that of a
document just registered, and every run goes back to a run of before or was
asked for by an edit just made.  `Descent` collects what the two have in
common, so that invariants of texts, settings and generations need not look at
the effects one by one.
-/

namespace LogTint

/-- Where a run comes from. -/
inductive Run.StemsFrom (kind : EffectKind) (session : Session) (run : Run) :
    Prop where
  | kept {earlier : Run} (member : earlier ∈ session.runs)
      (key : run.key = earlier.key) (source : run.source = earlier.source)
      (config : run.config = earlier.config)
      (phase : run.phase = earlier.phase ∨ run.phase.isBare = true)
  /-- It has read the text of its document. -/
  | read {earlier : Run} {document : Source} (member : earlier ∈ session.runs)
      (key : run.key = earlier.key) (source : run.source = earlier.source)
      (config : run.config = earlier.config)
      (found : session.sources[run.source]? = some document)
      (within : document.text.exceeds run.config.maxChars = false)
      (phase : run.phase = .computing document.text)
  /-- It has computed the highlights of the text that it had read. -/
  | computed {earlier : Run} {text : Text} (member : earlier ∈ session.runs)
      (key : run.key = earlier.key) (source : run.source = earlier.source)
      (config : run.config = earlier.config)
      (computing : earlier.phase = .computing text)
      (phase : run.phase = session.computedPhase earlier text)
  | broken {earlier : Run} {reason : String} (member : earlier ∈ session.runs)
      (key : run.key = earlier.key) (source : run.source = earlier.source)
      (config : run.config = earlier.config)
      (breakdown : kind = .breakdown run.key) (phase : run.phase = .failed reason)
  | fresh {entry : Entry} (found : session.registry.find? run.id = some entry)
      (generation : run.generation = entry.generation + 1)
      (source : run.source = entry.source)
      (config : run.config = session.settings.workerConfig)
      (phase : run.phase.isBare = true)

/-- What the entries, runs and debts after an effect have in common with those
of before. -/
structure Descent (kind : EffectKind) (debts : Debts) (session : Session)
    (after : Debts) (final : Session) : Prop where
  nextId : session.nextId ≤ final.nextId
  entries : ∀ {id entry}, final.registry.find? id = some entry →
    id.number = session.nextId ∨
      ∃ earlier, session.registry.find? id = some earlier ∧
        earlier.generation ≤ entry.generation ∧ entry.source = earlier.source
  runs : ∀ run ∈ final.runs, run.StemsFrom kind session
  settings : final.settings = session.settings ∨
    ∀ {id entry}, session.registry.find? id = some entry → id ∈ after.edits
  /-- Edits that are not owed any more have been made. -/
  edits : ∀ id ∈ debts.edits, id ∈ after.edits ∨
    ∀ entry, final.registry.find? id = some entry →
      ∃ earlier, session.registry.find? id = some earlier ∧
        earlier.generation < entry.generation

namespace Descent

variable {kind : EffectKind} {debts after : Debts} {session final : Session}

theorem stems_of_kept {keep : DocumentId × Nat → Prop} {runs : List Run}
    (kept : Run.Kept keep session.runs runs) :
    ∀ run ∈ runs, run.StemsFrom kind session := by
  intro run member
  obtain ⟨earlier, earlierMember, _, continues⟩ := kept.origin run member
  refine .kept earlierMember continues.key continues.source continues.config ?_
  rcases continues with rfl | ⟨_, rfl⟩
  · exact .inl rfl
  · exact .inr rfl

/-- A run joins runs that are kept. -/
theorem stems_of_join {keep : DocumentId × Nat → Prop} {others : List Run}
    {run : Run} (kept : Run.Kept keep session.runs others)
    (joined : run.StemsFrom kind session) :
    ∀ later ∈ others ++ [run], later.StemsFrom kind session := by
  intro later member
  rcases List.mem_append.mp member with earlier | last
  · exact stems_of_kept kept later earlier
  · rw [List.mem_singleton.mp last]
    exact joined

theorem stems_withPhase {run : Run} (member : run ∈ session.runs) {phase : Phase}
    (bare : phase.isBare = true) : Run.StemsFrom kind session { run with phase } :=
  .kept member rfl rfl rfl (.inr bare)

/-- Nothing is changed but the runs. -/
theorem of_runs {runs : List Run} (stem : ∀ run ∈ runs, run.StemsFrom kind session)
    (registry : final.registry = session.registry) (sameRuns : final.runs = runs)
    (nextId : final.nextId = session.nextId)
    (settings : final.settings = session.settings)
    (edits : debts.edits ⊆ after.edits) : Descent kind debts session after final where
  nextId := Nat.le_of_eq nextId.symm
  entries found := .inr ⟨_, registry ▸ found, Nat.le_refl _, rfl⟩
  runs run member := stem run (sameRuns ▸ member)
  settings := .inl settings
  edits _ owed := .inl (edits owed)

/-- A run ends and nothing else is changed. -/
theorem of_removeRun {between : Session} (distinct : Run.Distinct session.runs)
    (run : Run) (registry : between.registry = session.registry)
    (runs : between.runs = session.runs) (nextId : between.nextId = session.nextId)
    (settings : between.settings = session.settings)
    (edits : debts.edits ⊆ after.edits) :
    Descent kind debts session after (between.removeRun run) := by
  have kept := Session.removeRun_runs between (runs ▸ distinct) run
  rw [Session.removeRun_eq]
  exact of_runs (stems_of_kept (runs ▸ kept)) registry rfl nextId settings edits

/-- An edit changes the entries in a way that lets no generation go back. -/
theorem of_edited {change : DocumentId → Entry → Entry}
    (edited : Registry.Edited change session.registry final.registry)
    (ahead : ∀ id entry, entry.generation ≤ (change id entry).generation ∧
      (change id entry).source = entry.source)
    (stem : ∀ run ∈ final.runs, run.StemsFrom kind session)
    (nextId : final.nextId = session.nextId)
    (settings : final.settings = session.settings)
    (edits : ∀ id ∈ debts.edits, id ∈ after.edits ∨
      ∀ entry, entry.generation < (change id entry).generation) :
    Descent kind debts session after final where
  nextId := Nat.le_of_eq nextId.symm
  entries {id entry} found := by
    obtain ⟨earlier, foundBefore, rfl⟩ := edited.exists_of_find? found
    obtain ⟨generation, source⟩ := ahead id earlier
    exact .inr ⟨earlier, foundBefore, generation, source⟩
  runs := stem
  settings := .inl settings
  edits id owed := by
    refine (edits id owed).imp_right fun bumped entry found => ?_
    obtain ⟨earlier, foundBefore, rfl⟩ := edited.exists_of_find? found
    exact ⟨earlier, foundBefore, bumped earlier⟩

/-- A document is not tracked any more. -/
theorem of_erased {erased : DocumentId}
    (find? : ∀ other, final.registry.find? other =
      if other = erased then none else session.registry.find? other)
    (stem : ∀ run ∈ final.runs, run.StemsFrom kind session)
    (nextId : final.nextId = session.nextId)
    (settings : final.settings = session.settings)
    (edits : debts.edits ⊆ after.edits) : Descent kind debts session after final where
  nextId := Nat.le_of_eq nextId.symm
  entries {id entry} found := by
    rw [find?] at found
    split at found
    case isTrue => cases found
    case isFalse => exact .inr ⟨entry, found, Nat.le_refl _, rfl⟩
  runs := stem
  settings := .inl settings
  edits id owed := .inl (edits owed)

/-- A document gets a new generation, and the edit that is owed to it is made. -/
theorem of_renewed {id : DocumentId} (state : DocumentState)
    {change : DocumentId → Entry → Entry}
    (edited : Registry.Edited change session.registry final.registry)
    (renewed : ∀ entry,
      (change id entry).generation = (entry.renewed state).generation ∧
      (change id entry).source = (entry.renewed state).source)
    (others : ∀ other entry, other ≠ id → change other entry = entry)
    (stem : ∀ run ∈ final.runs, run.StemsFrom kind session)
    (nextId : final.nextId = session.nextId)
    (settings : final.settings = session.settings) :
    Descent kind debts session (debts.settle id) final := by
  refine of_edited edited ?_ stem nextId settings ?_
  · intro other entry
    by_cases here : other = id
    · obtain ⟨generation, source⟩ := renewed entry
      rw [here, generation, source, Entry.renewed_generation, Entry.renewed_source]
      exact ⟨Nat.le_succ _, rfl⟩
    · rw [others other entry here]
      exact ⟨Nat.le_refl _, rfl⟩
  · intro other owed
    by_cases here : other = id
    · refine .inr fun entry => ?_
      rw [here, (renewed entry).1, Entry.renewed_generation]
      exact Nat.lt_succ_self _
    · exact .inl (Debts.mem_settle.mpr ⟨owed, here⟩)

/-- A run ends, and its document may become idle. -/
theorem of_finished {run : Run} {runs : List Run}
    (kept : Run.Kept (· ≠ run.key) session.runs runs)
    (edits : debts.edits ⊆ after.edits) (metrics : Metrics)
    (log : List (Nat × Event)) :
    Descent kind debts session after
      { (session.advanceState? run .computing .idle).getD session with
        runs, metrics, log } := by
  cases advance : session.advanceState? run .computing .idle with
  | none => exact of_runs (stems_of_kept kept) rfl rfl rfl rfl edits
  | some advanced =>
      obtain ⟨_, registry, _, _, _, edited, rfl⟩ := Session.advanceState?_spec advance
      refine of_edited edited ?_ (stems_of_kept kept) rfl rfl fun _ owed =>
        .inl (edits owed)
      intro id entry
      by_cases here : id = run.id <;> simp [here, Entry.advanced]

/-- A run ends and tells the host why. -/
theorem of_finished_removeRun (distinct : Run.Distinct session.runs) (run : Run)
    (edits : debts.edits ⊆ after.edits) (occurrence : Occurrence) (event : Event) :
    Descent kind debts session after
      (((((session.advanceState? run .computing .idle).getD session).count
        occurrence).note event).removeRun run) := by
  have sameRuns := Session.advanceState?_getD_runs session run .computing .idle
  have kept := Session.removeRun_runs
    ((((session.advanceState? run .computing .idle).getD session).count
      occurrence).note event) (sameRuns ▸ distinct) run
  rw [Session.removeRun_eq]
  refine of_finished ?_ edits _ _
  rw [← sameRuns]
  exact kept

end Descent

/-- What stems from what, whichever the effect. -/
theorem Effect.descent {kind : EffectKind} {debts after : Debts}
    {session final : Session} (effect : Effect kind (debts, session) (after, final))
    (coherent : Coherent debts session) : Descent kind debts session after final := by
  have same : ∀ run ∈ session.runs, run.StemsFrom kind session :=
    Descent.stems_of_kept (Run.Kept.refl coherent.distinct)
  cases effect with
  | aside | count | remark | rewrite | tell | clearCache =>
      exact .of_runs same rfl rfl rfl rfl (List.Subset.refl _)
  | weaken edits => exact .of_runs same rfl rfl rfl rfl edits
  | measure => exact .of_runs same rfl rfl rfl rfl (List.subset_cons_self _ _)
  | register source held =>
      refine ⟨Nat.le_succ _, fun {id entry} found => ?_, same, .inl rfl,
        fun _ owed => .inl owed⟩
      rcases Registry.find?_add_some found with earlier | ⟨_, new, _⟩
      · exact .inr ⟨entry, earlier, Nat.le_refl _, rfl⟩
      · exact .inl (congrArg DocumentId.number new.symm)
  | unregister tracked =>
      obtain ⟨registry, runs, metrics, _, find?, kept, released⟩ :=
        session.release_spec coherent.distinct tracked
      unfold Session.releaseAndTell
      rw [released]
      exact .of_erased find? (Descent.stems_of_kept kept) rfl rfl (List.Subset.refl _)
  | abandon tracked =>
      obtain ⟨registry, runs, metrics, _, find?, kept, released⟩ :=
        session.release_spec coherent.distinct tracked
      rw [released]
      exact .of_erased find? (Descent.stems_of_kept kept) rfl rfl (List.Subset.refl _)
  | reconfigure settings =>
      refine ⟨Nat.le_refl _, fun found => .inr ⟨_, found, Nat.le_refl _, rfl⟩, same,
        .inr fun found => ?_, fun id owed => .inl (List.mem_append_right _ owed)⟩
      exact List.mem_append_left _ (Registry.mem_ids_iff.mpr ⟨_, found⟩)
  | @forget _ _ id untracked =>
      refine ⟨Nat.le_refl _, fun found => .inr ⟨_, found, Nat.le_refl _, rfl⟩, same,
        .inl rfl, fun other owed => ?_⟩
      by_cases here : other = id
      · refine .inr fun entry found => ?_
        cases (here ▸ found).symm.trans untracked
      · exact .inl (Debts.mem_settle.mpr ⟨owed, here⟩)
  | @bypass _ _ id entry document found =>
      obtain ⟨registry, runs, metrics, edited, kept, renewed⟩ :=
        session.renew_spec coherent.distinct id .idle
      rw [renewed]
      refine .of_renewed .idle edited ?_ ?_
        (Descent.stems_of_kept kept) rfl rfl
      · intro entry
        rw [if_pos rfl]
        exact ⟨rfl, rfl⟩
      · exact fun other entry different => if_neg different
  | @arm _ _ id entry found =>
      obtain ⟨registry, runs, metrics, edited, kept, renewed⟩ :=
        session.renew_spec coherent.distinct id .pending
      rw [renewed]
      have armed := Registry.edited_modify
        (fun renewed => { renewed with armed := some (entry.generation + 1) })
        (fun _ => rfl) registry id
      refine .of_renewed .pending (edited.trans armed) ?_ ?_
        (Descent.stems_of_join kept (.fresh found rfl rfl rfl rfl)) rfl rfl
      · intro entry
        rw [if_pos rfl, if_pos rfl]
        exact ⟨rfl, rfl⟩
      · intro other entry different
        rw [if_neg different, if_neg different]
  | @call _ _ id entry awaited found =>
      obtain ⟨registry, runs, metrics, edited, kept, renewed⟩ :=
        session.renew_spec coherent.distinct id .pending
      rw [renewed]
      refine .of_renewed .pending edited ?_ ?_
        (Descent.stems_of_join kept (.fresh found rfl rfl rfl rfl)) rfl rfl
      · intro entry
        rw [if_pos rfl]
        exact ⟨rfl, rfl⟩
      · exact fun other entry different => if_neg different
  | @wake _ _ run deadline member sleeping passed =>
      obtain ⟨others, kept, runs⟩ :=
        Session.enterPhase_runs session coherent.distinct run .due
      exact .of_runs (Descent.stems_of_join kept (Descent.stems_withPhase member rfl))
        rfl runs rfl rfl (List.Subset.refl _)
  | @wait _ _ run member due =>
      obtain ⟨others, kept, runs⟩ :=
        Session.enterPhase_runs session coherent.distinct run .waiting
      exact .of_runs (Descent.stems_of_join kept (Descent.stems_withPhase member rfl))
        rfl runs rfl rfl (List.Subset.refl _)
  | @start _ _ run advanced member ready advance alive =>
      obtain ⟨_, registry, _, _, _, edited, rfl⟩ := Session.advanceState?_spec advance
      obtain ⟨others, kept, runs⟩ :=
        Session.enterPhase_runs { session with registry } coherent.distinct run .reading
      refine .of_edited edited ?_ ?_ rfl rfl fun _ owed => .inl owed
      · intro id entry
        by_cases here : id = run.id <;> simp [here, Entry.advanced]
      · rw [runs]
        exact Descent.stems_of_join kept (Descent.stems_withPhase member rfl)
  | @read _ _ run texts document owed source within =>
      obtain ⟨member, reading⟩ := coherent.texts_head owed
      obtain ⟨others, kept, runs⟩ := Session.enterPhase_runs session
        coherent.distinct run (.computing document.text)
      have read : Run.StemsFrom .inner session
          { run with phase := .computing document.text } :=
        .read member rfl rfl rfl source within rfl
      exact .of_runs (Descent.stems_of_join kept read) rfl runs rfl rfl
        (List.Subset.refl _)
  | @overrun _ _ run texts document owed source above tracked =>
      refine .of_finished_removeRun coherent.distinct run ?_ _ _
      exact List.Subset.refl _
  | @overrunUntracked _ _ run texts document owed source above untracked =>
      exact .of_removeRun coherent.distinct run rfl rfl rfl rfl (List.Subset.refl _)
  | @complete _ _ run text member computing =>
      obtain ⟨others, cache, kept, _, completed⟩ :=
        session.complete_spec coherent.distinct run text
      have finished : Run.StemsFrom .inner session
          { run with phase := session.computedPhase run text } :=
        .computed member rfl rfl rfl computing rfl
      rw [completed]
      exact .of_runs (Descent.stems_of_join kept finished) rfl rfl rfl rfl
        (List.Subset.refl _)
  | @breakOff _ _ run text reason member computing =>
      obtain ⟨others, kept, broken⟩ :=
        session.breakOff_spec coherent.distinct run reason
      have failed : Run.StemsFrom (.breakdown run.key) session
          { run with phase := .failed reason } :=
        .broken member rfl rfl rfl rfl rfl
      rw [broken]
      exact .of_runs (Descent.stems_of_join kept failed) rfl rfl rfl rfl
        (List.Subset.refl _)
  | @stale _ _ run later member ready overtaken =>
      exact .of_removeRun coherent.distinct run rfl rfl rfl rfl (List.Subset.refl _)
  | @drop _ _ run member ready gone =>
      obtain ⟨registry, metrics, log, _, find?, dropped⟩ :=
        Session.closeDropped_spec session run
      rw [Session.removeRun_eq, dropped]
      have kept := Session.removeRun_runs { session with registry, metrics, log }
        coherent.distinct run
      exact .of_erased find? (Descent.stems_of_kept kept) rfl rfl (List.Subset.refl _)
  | @publish _ _ run text highlights lookup advanced member computed advance alive =>
      have settled :
          (session.advanceState? run .computing .idle).getD session = advanced := by
        rw [advance, Option.getD_some]
      subst settled
      refine .of_finished_removeRun coherent.distinct run ?_ _ _
      exact List.Subset.refl _
  | @report _ _ run reason member failed tracked =>
      refine .of_finished_removeRun coherent.distinct run ?_ _ _
      exact List.Subset.refl _
  | @reportUntracked _ _ run reason member failed untracked =>
      exact .of_removeRun coherent.distinct run rfl rfl rfl rfl (List.Subset.refl _)
  | close released present =>
      obtain ⟨registry, runs, edited, kept, closed⟩ :=
        session.close_spec coherent.distinct
      rw [closed]
      exact .of_edited edited (fun _ _ => ⟨Nat.le_refl _, rfl⟩)
        (Descent.stems_of_kept kept) rfl rfl fun _ owed => .inl owed

end LogTint
