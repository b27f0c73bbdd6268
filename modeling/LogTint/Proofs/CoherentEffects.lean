import LogTint.Proofs.Coherence

/-!
# Effects keep sessions coherent

Runs enter phases, end, or lose their documents; edits and calls give a
document a new generation and a run of that generation.
-/

namespace LogTint

namespace Coherent

variable {debts : Debts} {session : Session} {run : Run} {texts : List Run}

/-- Readers are told from runs that are not reading. -/
theorem texts_ne (coherent : Coherent debts session)
    (notReading : run.phase ≠ .reading) :
    ∀ other ∈ debts.texts, other ∈ debts.texts ∧ other ≠ run := by
  intro other owed
  refine ⟨owed, ?_⟩
  rintro rfl
  exact notReading (coherent.texts other owed).2.1

/-- A run that is not reading enters a phase of the same state. -/
theorem enter {phase : Phase} {rest : List Run} (coherent : Coherent debts session)
    (member : run ∈ session.runs)
    (kept : Run.Kept (· ≠ run.key) session.runs rest)
    (sameState : phase.state = run.phase.state) (awake : phase.isSleeping = false)
    (others : ∀ other ∈ texts, other ∈ debts.texts ∧ other ≠ run)
    (readers : texts.Nodup) (cache : Option Cache) :
    Coherent { debts with texts }
      { session with runs := rest ++ [{ run with phase }], cache } := by
  refine coherent.retain ⟨rfl, fun held => held, rfl, ?_, ?_⟩ coherent.ids ?_ ?_
    (List.Subset.refl _) ?_ readers
  · intro id entry found
    exact ⟨entry, found, Nat.le_refl _, rfl, .rfl, .inl rfl⟩
  · intro other otherMember
    rcases List.mem_append.mp otherMember with earlier | last
    · exact kept.stands earlier
    · rw [List.mem_singleton.mp last]
      exact ⟨run, member, rfl, rfl, .inl sameState⟩
  · exact kept.distinct.append fun other otherMember => kept.keeps_of_mem otherMember
  · intro id entry found open_
    exact (coherent.agrees found open_).enter coherent.distinct member kept
      sameState awake
  · intro other otherMember
    obtain ⟨owed, different⟩ := others other otherMember
    obtain ⟨present, reading, source⟩ := coherent.reads_on kept owed
      (coherent.reader_key_ne member owed different)
    exact ⟨List.mem_append_left _ present, reading, source⟩

/-- A run that is not its document's latest ends. -/
theorem overtaken {runs : List Run} (coherent : Coherent debts session)
    (member : run ∈ session.runs)
    (late : ∀ entry, session.registry.find? run.id = some entry →
      entry.generation = run.generation → entry.state ≠ run.phase.state)
    (kept : Run.Kept (· ≠ run.key) session.runs runs)
    (others : ∀ other ∈ texts, other ∈ debts.texts ∧ other ≠ run)
    (readers : texts.Nodup) (metrics : Metrics) (log : List (Nat × Event)) :
    Coherent { debts with texts } { session with runs, metrics, log } := by
  refine coherent.retain ⟨rfl, fun held => held, rfl, ?_, ?_⟩ coherent.ids
    kept.distinct ?_ (List.Subset.refl _) ?_ readers
  · intro id entry found
    exact ⟨entry, found, Nat.le_refl _, rfl, .rfl, .inl rfl⟩
  · exact fun _ member => kept.stands member
  · intro id entry found open_
    have agrees := coherent.agrees found open_
    refine agrees.kept kept ?_
    intro isCurrent
    have here : run.id = id :=
      (congrArg Prod.fst isCurrent).symm.trans (Registry.find?_id found)
    exact late entry (here ▸ found) (congrArg Prod.snd isCurrent)
      (agrees.current run member isCurrent.symm)
  · intro other otherMember
    obtain ⟨owed, different⟩ := others other otherMember
    exact coherent.reads_on kept owed (coherent.reader_key_ne member owed different)

/-- The latest run of a document ends and leaves the document idle. -/
theorem settled {advanced : Session} {runs : List Run}
    (coherent : Coherent debts session) (member : run ∈ session.runs)
    (advance : session.advanceState? run .computing .idle = some advanced)
    (kept : Run.Kept (· ≠ run.key) session.runs runs)
    (others : ∀ other ∈ texts, other ∈ debts.texts ∧ other ≠ run)
    (readers : texts.Nodup) (metrics : Metrics) (log : List (Nat × Event)) :
    Coherent { debts with texts } { advanced with runs, metrics, log } := by
  obtain ⟨latest, registry, foundLatest, generation, computing, edited, rfl⟩ :=
    Session.advanceState?_spec advance
  refine coherent.retain ⟨rfl, fun held => held, rfl, ?_, ?_⟩
    (edited.ids ▸ coherent.ids) kept.distinct ?_ (List.Subset.refl _) ?_
    readers
  · intro id entry found
    obtain ⟨earlier, foundBefore, rfl⟩ := edited.exists_of_find? found
    refine ⟨earlier, foundBefore, ?_⟩
    by_cases here : id = run.id
    · subst here
      cases foundLatest.symm.trans foundBefore
      simp [Entry.advanced, computing]
    · simp [here]
  · exact fun _ member => kept.stands member
  · intro id entry found open_
    obtain ⟨earlier, foundBefore, rfl⟩ := edited.exists_of_find? found
    have number := Registry.find?_id foundBefore
    by_cases here : id = run.id
    · subst here
      cases foundLatest.symm.trans foundBefore
      have agrees := coherent.agrees foundLatest (by simp [computing])
      -- An armed run would still be pending.
      have unarmed : latest.armed = none := by
        cases armed : latest.armed with
        | none => rfl
        | some armedGeneration =>
            obtain ⟨same, other, otherMember, otherKey, _⟩ :=
              agrees.armed armedGeneration armed
            have pending := coherent.armed foundLatest armed other otherMember
              (number ▸ otherKey)
            rw [← agrees.current other otherMember (same ▸ otherKey), computing]
              at pending
            cases pending
      rw [if_pos rfl]
      refine agrees.leave kept ?_ unarmed
      rw [number, generation]
      exact fun different => different rfl
    · rw [if_neg here] at open_ ⊢
      refine (coherent.agrees foundBefore open_).kept kept ?_
      intro same
      exact here (number.symm.trans (congrArg Prod.fst same))
  · intro other otherMember
    obtain ⟨owed, different⟩ := others other otherMember
    exact coherent.reads_on kept owed (coherent.reader_key_ne member owed different)

/-- A run past its beginning ends, whether or not it is its document's latest. -/
theorem finished {runs : List Run} (coherent : Coherent debts session)
    (member : run ∈ session.runs) (underWay : run.phase.state = .computing)
    (kept : Run.Kept (· ≠ run.key) session.runs runs)
    (others : ∀ other ∈ texts, other ∈ debts.texts ∧ other ≠ run)
    (readers : texts.Nodup) (metrics : Metrics) (log : List (Nat × Event)) :
    Coherent { debts with texts }
      { (session.advanceState? run .computing .idle).getD session with
        runs, metrics, log } := by
  cases advance : session.advanceState? run .computing .idle with
  | none =>
      refine coherent.overtaken member ?_ kept others readers metrics log
      rw [underWay]
      exact Session.advanceState?_eq_none_iff.mp advance
  | some advanced =>
      exact coherent.settled member advance kept others readers metrics log

/-- A document is not tracked any more. -/
theorem erase {registry : Registry} {runs : List Run} {id : DocumentId}
    {keep : DocumentId × Nat → Prop} (coherent : Coherent debts session)
    (ids : registry.ids.Sublist session.registry.ids)
    (find? : ∀ other, registry.find? other =
      if other = id then none else session.registry.find? other)
    (kept : Run.Kept keep session.runs runs)
    (others : ∀ key : DocumentId × Nat, key.1 ≠ id → keep key)
    (texts : ∀ run ∈ debts.texts, keep run.key) (metrics : Metrics)
    (notices : List Notice) (log : List (Nat × Event)) :
    Coherent debts { session with registry, runs, metrics, notices, log } := by
  have foundBefore : ∀ {other entry}, registry.find? other = some entry →
      other ≠ id ∧ session.registry.find? other = some entry := by
    intro other entry found
    rw [find?] at found
    split at found
    · cases found
    · exact ⟨‹_›, found⟩
  refine coherent.retain ⟨rfl, fun held => held, rfl, ?_, ?_⟩
    (coherent.ids.sublist ids) kept.distinct ?_ (List.Subset.refl _) ?_
    coherent.readers
  · intro other entry found
    exact ⟨entry, (foundBefore found).2, Nat.le_refl _, rfl, .rfl, .inl rfl⟩
  · exact fun _ member => kept.stands member
  · intro other entry found open_
    obtain ⟨different, before⟩ := foundBefore found
    exact (coherent.agrees before open_).kept kept
      (others _ ((Registry.find?_id before).symm ▸ different))
  · exact fun other owed => coherent.reads_on kept owed (texts other owed)

/-- An edit gives a document a generation that no run has yet. -/
theorem renew {id : DocumentId} {entry : Entry} (coherent : Coherent debts session)
    (found : session.registry.find? id = some entry) :
    Coherent debts ((session.supersede id).setState id .idle) ∧
      ((session.supersede id).setState id .idle).registry.find? id =
        some (entry.renewed .idle) ∧
      ∀ run ∈ ((session.supersede id).setState id .idle).runs, run.id = id →
        run.generation ≤ entry.generation := by
  obtain ⟨registry, runs, metrics, edited, kept, renewed⟩ :=
    session.renew_spec coherent.distinct id .idle
  rw [renewed]
  have foundAfter := edited.find?_some found
  rw [if_pos rfl] at foundAfter
  have number := Registry.find?_id found
  have bound : ∀ run ∈ runs, run.id = id → run.generation ≤ entry.generation := by
    intro run member here
    obtain ⟨before, beforeMember, _, continues⟩ := kept.origin run member
    rw [continues.generation]
    exact (coherent.bounded before beforeMember
      (by rw [← continues.id, here, found])).1
  refine ⟨?_, foundAfter, bound⟩
  refine coherent.retain ⟨rfl, fun held => held, rfl, ?_, ?_⟩
    (edited.ids ▸ coherent.ids) kept.distinct ?_ (List.Subset.refl _) ?_
    coherent.readers
  · intro other entry found
    obtain ⟨earlier, foundBefore, rfl⟩ := edited.exists_of_find? found
    refine ⟨earlier, foundBefore, ?_⟩
    by_cases here : other = id
    · by_cases closed : earlier.state = .closed <;>
        simp [here, closed, Entry.renewed, Entry.bumped]
    · simp [here]
  · exact fun _ member => kept.stands member
  · intro other otherEntry found open_
    obtain ⟨earlier, foundBefore, rfl⟩ := edited.exists_of_find? found
    by_cases here : other = id
    · subst other
      cases foundBefore.symm.trans ‹session.registry.find? id = some entry›
      rw [if_pos rfl] at open_ ⊢
      have notClosed : entry.state ≠ .closed := by
        intro closed
        simp [Entry.renewed, Entry.bumped, closed] at open_
      have agrees := coherent.agrees foundBefore notClosed
      refine agrees.renewed notClosed kept (number ▸ bound) ?_
      intro generation armed keeps
      refine keeps ⟨number, Session.isArmed_iff.mpr ⟨entry, ?_, armed⟩⟩
      exact number.symm ▸ foundBefore
    · rw [if_neg here] at open_ ⊢
      refine (coherent.agrees foundBefore open_).kept kept ?_
      exact fun same => here ((Registry.find?_id foundBefore).symm.trans same.1)
  · intro run owed
    obtain ⟨present, reading, _⟩ := coherent.texts run owed
    exact coherent.reads_on kept owed fun same =>
      coherent.reading_not_armed present reading same.2

/-- A run of its document's latest generation joins the other runs. -/
theorem join {new : Run} {entry : Entry} {registry : Registry}
    (coherent : Coherent debts session)
    (found : session.registry.find? new.id = some entry)
    (latest : new.generation = entry.generation) (source : new.source = entry.source)
    (pending : new.phase.state = .pending)
    (timer : new.phase.isSleeping → new.origin = .timer)
    (fresh : ∀ run ∈ session.runs, run.id = new.id → run.generation < entry.generation)
    (edited : Registry.Edited
      (fun id entry => if id = new.id then entry.joined new else entry)
      session.registry registry) :
    Coherent debts { session with registry, runs := session.runs ++ [new] } := by
  have unmoved : ∀ {id entry}, registry.find? id = some entry →
      ∃ earlier, session.registry.find? id = some earlier ∧
        entry.generation = earlier.generation ∧ entry.source = earlier.source ∧
        (entry.state = .closed ↔ earlier.state = .closed) := by
    intro id other foundAfter
    obtain ⟨earlier, foundBefore, rfl⟩ := edited.exists_of_find? foundAfter
    refine ⟨earlier, foundBefore, ?_⟩
    by_cases here : id = new.id
    · subst here
      cases foundBefore.symm.trans found
      rw [if_pos rfl, Entry.joined]
      refine ⟨rfl, rfl, ?_⟩
      by_cases closed : entry.state = .closed <;> simp [closed]
    · rw [if_neg here]
      exact ⟨rfl, rfl, .rfl⟩
  have number := Registry.find?_id found
  have newKey : new.key = (entry.id, entry.generation) := by
    rw [number, ← latest]
    rfl
  exact {
    ids := edited.ids ▸ coherent.ids
    known := by
      intro id other foundAfter
      obtain ⟨_, foundBefore, _⟩ := unmoved foundAfter
      exact coherent.known foundBefore
    distinct := by
      refine coherent.distinct.append fun run member sameKey => ?_
      have less := fresh run member (congrArg Prod.fst sameKey)
      have same : run.generation = new.generation := congrArg Prod.snd sameKey
      omega
    numbered := by
      intro run member
      rcases List.mem_append.mp member with earlier | last
      · exact coherent.numbered run earlier
      · rw [List.mem_singleton.mp last]
        exact coherent.known found
    bounded := by
      intro run member other foundAfter
      obtain ⟨before, foundBefore, generation, sameSource, _⟩ := unmoved foundAfter
      rw [generation, sameSource]
      rcases List.mem_append.mp member with earlier | last
      · exact coherent.bounded run earlier foundBefore
      · rw [List.mem_singleton.mp last] at foundBefore ⊢
        cases foundBefore.symm.trans found
        exact ⟨Nat.le_of_eq latest, source⟩
    agrees := by
      intro id other foundAfter open_
      obtain ⟨before, foundBefore, rfl⟩ := edited.exists_of_find? foundAfter
      by_cases here : id = new.id
      · subst here
        cases foundBefore.symm.trans found
        rw [if_pos rfl] at open_ ⊢
        have notClosed : entry.state ≠ .closed := by
          intro closed
          simp [Entry.joined, closed] at open_
        exact (coherent.agrees foundBefore notClosed).joined notClosed newKey pending
          timer (number.symm ▸ fresh)
      · rw [if_neg here] at open_ ⊢
        refine (coherent.agrees foundBefore open_).append_other ?_
        exact fun same => here ((Registry.find?_id foundBefore).symm.trans same.symm)
    armed := by
      intro id other generation foundAfter isArmed run member runKey
      obtain ⟨before, foundBefore, rfl⟩ := edited.exists_of_find? foundAfter
      rcases List.mem_append.mp member with earlier | last
      · by_cases here : id = new.id
        · subst here
          cases foundBefore.symm.trans found
          rw [if_pos rfl, Entry.joined] at isArmed
          dsimp only at isArmed
          have less := fresh run earlier (congrArg Prod.fst runKey)
          have same : run.generation = generation := congrArg Prod.snd runKey
          split at isArmed
          · cases isArmed
            omega
          · cases isArmed
        · rw [if_neg here] at isArmed
          exact coherent.armed foundBefore isArmed run earlier runKey
      · rw [List.mem_singleton.mp last]
        exact pending
    present := by
      intro present id other foundAfter
      obtain ⟨before, foundBefore, _, _, closed⟩ := unmoved foundAfter
      rw [Ne, closed]
      exact coherent.present present foundBefore
    gone := by
      intro dropped
      obtain ⟨released, allClosed⟩ := coherent.gone dropped
      refine ⟨released, fun foundAfter => ?_⟩
      obtain ⟨before, foundBefore, _, _, closed⟩ := unmoved foundAfter
      exact closed.mpr (allClosed foundBefore)
    lengths := by
      intro asked member
      obtain ⟨known, sources⟩ := coherent.lengths asked member
      refine ⟨known, fun foundAfter => ?_⟩
      obtain ⟨before, foundBefore, _, sameSource, _⟩ := unmoved foundAfter
      rw [sameSource]
      exact sources foundBefore
    texts := by
      intro run owed
      obtain ⟨present, reading, below⟩ := coherent.texts run owed
      exact ⟨List.mem_append_left _ present, reading, below⟩
    readers := coherent.readers }

/-- A document is tracked under a number that was never used. -/
theorem register (coherent : Coherent debts session) (source : SourceId)
    (held : session.held = true) (metrics : Metrics) :
    Coherent debts
      { session with
        nextId := session.nextId + 1
        registry :=
          session.registry.add ⟨⟨session.nextId⟩, source, .idle, 0, none⟩
        metrics } := by
  let added : Entry := ⟨⟨session.nextId⟩, source, .idle, 0, none⟩
  have here : session.dropped = false := by
    cases dropped : session.dropped with
    | false => rfl
    | true =>
        have released := (coherent.gone dropped).1
        rw [held] at released
        cases released
  have unused : session.registry.find? added.id = none := by
    cases found : session.registry.find? added.id with
    | none => rfl
    | some entry => exact absurd (coherent.known found) (Nat.lt_irrefl _)
  have foundBefore : ∀ {id entry}, (session.registry.add added).find? id = some entry →
      session.registry.find? id = some entry ∨ id = added.id ∧ entry = added := by
    intro id entry found
    rw [Registry.find?_add, Option.or_eq_some_iff] at found
    rcases found with before | ⟨_, last⟩
    · exact .inl before
    · split at last
      · cases last
        exact .inr ⟨Eq.symm ‹_›, rfl⟩
      · cases last
  have fresh : ∀ run ∈ session.runs, run.id ≠ added.id := by
    intro run member same
    have below := coherent.numbered run member
    rw [same] at below
    exact Nat.lt_irrefl _ below
  exact {
    ids := by
      rw [Registry.ids_add, List.nodup_append]
      refine ⟨coherent.ids, by simp, ?_⟩
      intro id member other last same
      rw [List.mem_singleton] at last
      obtain ⟨entry, found⟩ := Registry.mem_ids_iff.mp member
      rw [same, last, unused] at found
      cases found
    known := by
      intro id entry found
      rcases foundBefore found with before | ⟨rfl, _⟩
      · exact Nat.lt_succ_of_lt (coherent.known before)
      · exact Nat.lt_succ_self _
    distinct := coherent.distinct
    numbered run member := Nat.lt_succ_of_lt (coherent.numbered run member)
    bounded := by
      intro run member entry found
      rcases foundBefore found with before | ⟨same, _⟩
      · exact coherent.bounded run member before
      · exact absurd same (fresh run member)
    agrees := by
      intro id entry found open_
      rcases foundBefore found with before | ⟨_, rfl⟩
      · exact coherent.agrees before open_
      · exact .of_no_runs fresh rfl rfl
    armed := by
      intro id entry generation found isArmed
      rcases foundBefore found with before | ⟨_, rfl⟩
      · exact coherent.armed before isArmed
      · cases isArmed
    present := by
      intro present id entry found
      rcases foundBefore found with before | ⟨_, rfl⟩
      · exact coherent.present present before
      · simp [added]
    gone := by
      intro dropped
      rw [show session.dropped = true from dropped] at here
      cases here
    lengths := by
      intro asked member
      obtain ⟨known, sources⟩ := coherent.lengths asked member
      refine ⟨Nat.lt_succ_of_lt known, fun found => ?_⟩
      rcases foundBefore found with before | ⟨same, _⟩
      · exact sources before
      · rw [same] at known
        exact absurd known (Nat.lt_irrefl _)
    texts := coherent.texts
    readers := coherent.readers }

/-- The latest run of a pending document begins to read. -/
theorem start {advanced : Session} (coherent : Coherent debts session)
    (member : run ∈ session.runs) (ready : run.phase = .due ∨ run.phase = .granted)
    (advance : session.advanceState? run .pending .computing = some advanced)
    (alive : session.isAlive run.source) :
    Coherent { debts with texts := { run with phase := .reading } :: debts.texts }
      (advanced.enterPhase run .reading) := by
  obtain ⟨latest, registry, foundLatest, generation, pending, edited, rfl⟩ :=
    Session.advanceState?_spec advance
  obtain ⟨others, kept, runs⟩ :=
    Session.enterPhase_runs { session with registry } coherent.distinct run .reading
  have notReading : run.phase ≠ .reading := by
    rcases ready with due | granted
    · simp [due]
    · simp [granted]
  have lastMember : ({ run with phase := .reading } : Run) ∈
      (Session.enterPhase { session with registry } run .reading).runs := by
    rw [runs]
    exact List.mem_append_right _ (List.mem_singleton_self _)
  have sourceBelow : run.source < session.sources.length := by
    unfold Session.isAlive at alive
    split at alive
    case h_1 document found => exact (List.getElem?_eq_some_iff.mp found).1
    case h_2 => cases alive
  refine coherent.retain ⟨rfl, fun held => held, rfl, ?_, ?_⟩
    (edited.ids ▸ coherent.ids) ?_ ?_ (List.Subset.refl _) ?_ ?_
  · intro id entry found
    obtain ⟨earlier, foundBefore, rfl⟩ := edited.exists_of_find? found
    refine ⟨earlier, foundBefore, ?_⟩
    by_cases here : id = run.id
    · subst here
      cases foundLatest.symm.trans foundBefore
      simp [Entry.advanced, pending]
    · simp [here]
  · intro other otherMember
    rw [runs] at otherMember
    rcases List.mem_append.mp otherMember with earlier | last
    · exact kept.stands earlier
    · rw [List.mem_singleton.mp last]
      refine ⟨run, member, rfl, rfl, .inr fun entry found => ?_⟩
      obtain ⟨earlier, _, rfl⟩ := edited.exists_of_find? found
      simp [Entry.advanced]
  · rw [runs]
    exact kept.distinct.append fun other otherMember => kept.keeps_of_mem otherMember
  · intro id entry found open_
    rw [runs]
    obtain ⟨earlier, foundBefore, rfl⟩ := edited.exists_of_find? found
    have number := Registry.find?_id foundBefore
    by_cases here : id = run.id
    · subst here
      cases foundLatest.symm.trans foundBefore
      have agrees := coherent.agrees foundLatest (by simp [pending])
      have runKey : run.key = (latest.id, latest.generation) := by
        rw [number, generation]
        rfl
      rw [if_pos rfl]
      exact agrees.begun runKey kept
    · rw [if_neg here] at open_ ⊢
      refine Entry.Agrees.append_other
        ((coherent.agrees foundBefore open_).kept kept ?_) ?_
      · exact fun same => here (number.symm.trans (congrArg Prod.fst same))
      · exact fun same => here (number.symm.trans same.symm)
  · intro other owed
    rcases List.mem_cons.mp owed with rfl | earlier
    · exact ⟨lastMember, rfl, sourceBelow⟩
    · have different := (coherent.texts_ne notReading other earlier).2
      obtain ⟨present, reading, below⟩ := coherent.reads_on kept earlier
        (coherent.reader_key_ne member earlier different)
      rw [runs]
      exact ⟨List.mem_append_left _ present, reading, below⟩
  · refine List.nodup_cons.mpr ⟨fun owed => ?_, coherent.readers⟩
    obtain ⟨present, reading, _⟩ := coherent.texts _ owed
    have same := coherent.distinct.eq present member rfl
    exact notReading ((congrArg Run.phase same).symm.trans reading)

/-- A scheduler that is gone tracks nothing that could go on. -/
theorem close (coherent : Coherent debts session) (released : session.held = false) :
    Coherent debts session.close := by
  obtain ⟨registry, runs, edited, kept, closed⟩ := session.close_spec coherent.distinct
  rw [closed]
  exact {
    ids := edited.ids ▸ coherent.ids
    known := by
      intro id entry found
      obtain ⟨_, foundBefore, _⟩ := edited.exists_of_find? found
      exact coherent.known foundBefore
    distinct := kept.distinct
    numbered := by
      intro run member
      obtain ⟨before, beforeMember, _, continues⟩ := kept.origin run member
      rw [continues.id]
      exact coherent.numbered before beforeMember
    bounded := by
      intro run member entry found
      obtain ⟨before, beforeMember, _, continues⟩ := kept.origin run member
      obtain ⟨earlier, foundBefore, rfl⟩ := edited.exists_of_find? found
      rw [continues.generation, continues.source]
      have bound := coherent.bounded before beforeMember (continues.id ▸ foundBefore)
      exact bound
    agrees := by
      intro id entry found open_
      obtain ⟨_, _, rfl⟩ := edited.exists_of_find? found
      exact absurd rfl open_
    armed := by
      intro id entry generation found isArmed
      obtain ⟨_, _, rfl⟩ := edited.exists_of_find? found
      cases isArmed
    present := by
      intro present
      cases present
    gone := by
      intro _
      refine ⟨released, fun found => ?_⟩
      obtain ⟨_, _, rfl⟩ := edited.exists_of_find? found
      rfl
    lengths := by
      intro asked member
      obtain ⟨known, sources⟩ := coherent.lengths asked member
      refine ⟨known, fun found => ?_⟩
      obtain ⟨earlier, foundBefore, rfl⟩ := edited.exists_of_find? found
      have source : earlier.source = asked.2 := sources foundBefore
      exact source
    texts := by
      intro run owed
      obtain ⟨present, reading, _⟩ := coherent.texts run owed
      exact coherent.reads_on kept owed (coherent.reading_not_armed present reading)
    readers := coherent.readers }

/-- The readers behind the first are told from it. -/
theorem texts_tail (coherent : Coherent debts session)
    (owed : debts.texts = run :: texts) :
    (∀ other ∈ texts, other ∈ debts.texts ∧ other ≠ run) ∧ texts.Nodup := by
  have readers := coherent.readers
  rw [owed, List.nodup_cons] at readers
  refine ⟨fun other member => ?_, readers.2⟩
  rw [owed]
  refine ⟨List.mem_cons_of_mem _ member, ?_⟩
  rintro rfl
  exact readers.1 member

/-- A run that owes a text is reading. -/
theorem texts_head (coherent : Coherent debts session)
    (owed : debts.texts = run :: texts) :
    run ∈ session.runs ∧ run.phase = .reading := by
  obtain ⟨member, reading, _⟩ :=
    coherent.texts run (owed ▸ List.mem_cons_self)
  exact ⟨member, reading⟩

theorem enterPhase {phase : Phase} (coherent : Coherent debts session)
    (member : run ∈ session.runs) (sameState : phase.state = run.phase.state)
    (awake : phase.isSleeping = false)
    (others : ∀ other ∈ texts, other ∈ debts.texts ∧ other ≠ run)
    (readers : texts.Nodup) :
    Coherent { debts with texts } (session.enterPhase run phase) := by
  obtain ⟨rest, kept, runs⟩ :=
    Session.enterPhase_runs session coherent.distinct run phase
  have entered : session.enterPhase run phase =
      { session with runs := rest ++ [{ run with phase }] } := by
    rw [← runs]
    rfl
  rw [entered]
  exact coherent.enter member kept sameState awake others readers session.cache

theorem releaseAndTell {id : DocumentId} (coherent : Coherent debts session)
    (tracked : session.registry.contains id) :
    Coherent debts (session.releaseAndTell id) := by
  obtain ⟨registry, runs, metrics, ids, find?, kept, released⟩ :=
    session.release_spec coherent.distinct tracked
  unfold Session.releaseAndTell
  rw [released]
  refine coherent.erase ids find? kept (fun key different same => different same.1) ?_
    metrics session.notices _
  intro run owed same
  obtain ⟨present, reading, _⟩ := coherent.texts run owed
  exact coherent.reading_not_armed present reading same.2

theorem release_sendNotice {id : DocumentId} (coherent : Coherent debts session)
    (tracked : session.registry.contains id) :
    Coherent debts ((session.release id).sendNotice id) := by
  obtain ⟨registry, runs, metrics, ids, find?, kept, released⟩ :=
    session.release_spec coherent.distinct tracked
  rw [released]
  refine coherent.erase ids find? kept (fun key different same => different same.1) ?_
    metrics _ session.log
  intro run owed same
  obtain ⟨present, reading, _⟩ := coherent.texts run owed
  exact coherent.reading_not_armed present reading same.2

/-- A run that is not reading ends together with its document. -/
theorem closeDropped_removeRun (coherent : Coherent debts session)
    (member : run ∈ session.runs) (notReading : run.phase ≠ .reading) :
    Coherent debts ((session.closeDropped run).removeRun run) := by
  obtain ⟨registry, metrics, log, ids, find?, dropped⟩ :=
    Session.closeDropped_spec session run
  rw [Session.removeRun_eq, dropped]
  have kept := Session.removeRun_runs
    { session with registry, metrics, log } coherent.distinct run
  refine coherent.erase ids find? kept ?_ ?_ metrics session.notices log
  · exact fun key different same => different (congrArg Prod.fst same)
  · intro other owed same
    obtain ⟨present, _⟩ := coherent.texts other owed
    exact (coherent.texts_ne notReading other owed).2
      (coherent.distinct.eq present member same)

/-- A run past its beginning ends and tells the host why. -/
theorem finished_removeRun (coherent : Coherent debts session)
    (member : run ∈ session.runs) (underWay : run.phase.state = .computing)
    (others : ∀ other ∈ texts, other ∈ debts.texts ∧ other ≠ run)
    (readers : texts.Nodup) (occurrence : Occurrence) (event : Event) :
    Coherent { debts with texts }
      (((((session.advanceState? run .computing .idle).getD session).count
        occurrence).note event).removeRun run) := by
  have sameRuns := Session.advanceState?_getD_runs session run .computing .idle
  have kept := Session.removeRun_runs
    ((((session.advanceState? run .computing .idle).getD session).count
      occurrence).note event) (sameRuns ▸ coherent.distinct) run
  rw [Session.removeRun_eq]
  refine coherent.finished member underWay ?_ others readers _ _
  rw [← sameRuns]
  exact kept

/-- A run of a document that is not tracked any more ends. -/
theorem untracked_removeRun (coherent : Coherent debts session)
    (member : run ∈ session.runs)
    (untracked : session.registry.find? run.id = none)
    (others : ∀ other ∈ texts, other ∈ debts.texts ∧ other ≠ run)
    (readers : texts.Nodup) (occurrence : Occurrence) (event : Event) :
    Coherent { debts with texts }
      (((session.count occurrence).note event).removeRun run) := by
  have kept := Session.removeRun_runs
    ((session.count occurrence).note event) coherent.distinct run
  rw [Session.removeRun_eq]
  refine coherent.overtaken member ?_ kept others readers _ _
  intro entry found
  rw [untracked] at found
  cases found

/-- An edit renews the entry of its document and arms a run. -/
theorem arm {id : DocumentId} {entry : Entry} (coherent : Coherent debts session)
    (found : session.registry.find? id = some entry) (config : WorkerConfig) :
    Coherent debts
      (((session.supersede id).setState id .pending).arm id entry.source
        (entry.generation + 1) config) := by
  obtain ⟨renewed, foundAfter, bound⟩ := coherent.renew found
  rw [← Session.setState_setState _ id .idle .pending (by simp)]
  refine renewed.join foundAfter (Entry.renewed_generation _ _).symm
    (Entry.renewed_source _ _).symm rfl (fun _ => rfl) ?_ ?_
  · intro run member here
    rw [Entry.renewed_generation]
    exact Nat.lt_succ_of_le (bound run member here)
  · refine ((Registry.edited_modify _ ?_ _ id).trans
      (Registry.edited_modify _ ?_ _ id)).congr ?_
    · intro other
      split <;> rfl
    · intro other
      rfl
    · intro other otherEntry _
      by_cases here : other = id
      · by_cases closed : otherEntry.state = .closed <;>
          simp [here, closed, Entry.joined, Phase.isSleeping]
      · simp [here]

/-- A call renews the entry of its document and asks for a run. -/
theorem call {id : DocumentId} {entry : Entry} (coherent : Coherent debts session)
    (found : session.registry.find? id = some entry) (config : WorkerConfig)
    (awaited : Bool) :
    Coherent debts
      { (session.supersede id).setState id .pending with
        runs := ((session.supersede id).setState id .pending).runs ++
          [{ id
             generation := entry.generation + 1
             source := entry.source
             config
             origin := .call awaited
             phase := .due }] } := by
  obtain ⟨renewed, foundAfter, bound⟩ := coherent.renew found
  rw [← Session.setState_setState _ id .idle .pending (by simp)]
  refine renewed.join foundAfter (Entry.renewed_generation _ _).symm
    (Entry.renewed_source _ _).symm rfl (fun asleep => by cases asleep) ?_ ?_
  · intro run member here
    rw [Entry.renewed_generation]
    exact Nat.lt_succ_of_le (bound run member here)
  · refine (Registry.edited_modify _ ?_ _ id).congr ?_
    · intro other
      split <;> rfl
    · intro other otherEntry foundOther
      by_cases here : other = id
      · subst here
        cases foundAfter.symm.trans foundOther
        have unarmed := Entry.renewed_armed .idle entry
        generalize entry.renewed .idle = renewedEntry at unarmed ⊢
        obtain ⟨number, source, state, generation, armed⟩ := renewedEntry
        cases unarmed
        by_cases closed : state = .closed <;>
          simp [closed, Entry.joined, Phase.isSleeping]
      · simp [here]

/-- The coherence of a session is kept by every effect. -/
theorem ofEffect {kind : EffectKind} {after : Debts} {final : Session}
    (effect : Effect kind (debts, session) (after, final))
    (coherent : Coherent debts session) : Coherent after final := by
  cases effect with
  | aside later contents holding =>
      have same := congrArg List.length contents
      rw [List.length_map, List.length_map] at same
      exact coherent.congr rfl rfl rfl rfl holding (Nat.le_of_eq same.symm)
        (List.Subset.refl _) rfl
  | rewrite longer =>
      exact coherent.congr rfl rfl rfl rfl (fun held => held) longer
        (List.Subset.refl _) rfl
  | count | remark | tell | clearCache | reconfigure | forget =>
      exact coherent.congr rfl rfl rfl rfl (fun held => held) (Nat.le_refl _)
        (List.Subset.refl _) rfl
  | weaken edits lengths texts =>
      exact coherent.congr rfl rfl rfl rfl (fun held => held) (Nat.le_refl _)
        lengths texts
  | measure found =>
      refine { coherent with lengths := ?_ }
      intro asked member
      rcases List.mem_cons.mp member with rfl | earlier
      · refine ⟨coherent.known found, fun foundAgain => ?_⟩
        cases found.symm.trans foundAgain
        rfl
      · exact coherent.lengths asked earlier
  | register source held => exact coherent.register source held _
  | unregister tracked => exact coherent.releaseAndTell tracked
  | abandon tracked => exact coherent.release_sendNotice tracked
  | close released present => exact coherent.close released
  | bypass found =>
      exact (coherent.renew found).1.congr rfl rfl rfl rfl (fun held => held)
        (Nat.le_refl _) (List.Subset.refl _) rfl
  | arm found =>
      exact (coherent.arm found _).congr rfl rfl rfl rfl (fun held => held)
        (Nat.le_refl _) (List.Subset.refl _) rfl
  | call awaited found =>
      exact (coherent.call found _ awaited).congr rfl rfl rfl rfl (fun held => held)
        (Nat.le_refl _) (List.Subset.refl _) rfl
  | wake member sleeping =>
      exact coherent.enterPhase member (by simp [sleeping, Phase.state]) rfl
        (coherent.texts_ne (by simp [sleeping])) coherent.readers
  | wait member due =>
      exact coherent.enterPhase member (by simp [due, Phase.state]) rfl
        (coherent.texts_ne (by simp [due])) coherent.readers
  | start member ready advance alive => exact coherent.start member ready advance alive
  | read owed =>
      obtain ⟨member, reading⟩ := coherent.texts_head owed
      obtain ⟨tail, readers⟩ := coherent.texts_tail owed
      exact coherent.enterPhase member (by simp [reading, Phase.state]) rfl tail
        readers
  | overrun owed =>
      obtain ⟨member, reading⟩ := coherent.texts_head owed
      obtain ⟨tail, readers⟩ := coherent.texts_tail owed
      exact coherent.finished_removeRun member (by simp [reading, Phase.state])
        tail readers _ _
  | overrunUntracked owed source above untracked =>
      obtain ⟨member, _⟩ := coherent.texts_head owed
      obtain ⟨tail, readers⟩ := coherent.texts_tail owed
      exact coherent.untracked_removeRun member untracked tail readers _ _
  | @complete _ _ run text member computing =>
      obtain ⟨others, cache, kept, _, completed⟩ :=
        session.complete_spec coherent.distinct run text
      rw [completed]
      exact coherent.enter member kept (by rw [computing]; rfl) rfl
        (coherent.texts_ne (by simp [computing])) coherent.readers cache
  | @breakOff _ _ run text reason member computing =>
      obtain ⟨others, kept, broken⟩ :=
        session.breakOff_spec coherent.distinct run reason
      rw [broken]
      exact coherent.enter member kept (by rw [computing]; rfl) rfl
        (coherent.texts_ne (by simp [computing])) coherent.readers session.cache
  | @stale _ _ run later member ready overtaken =>
      have kept := Session.removeRun_runs (session.count .discarded)
        coherent.distinct run
      rw [Session.removeRun_eq]
      refine coherent.overtaken member
        (Session.advanceState?_eq_none_iff.mp overtaken) kept
        (coherent.texts_ne ?_) coherent.readers _ _
      intro reading
      simp [reading, Phase.isReady] at ready
  | drop member ready gone =>
      refine coherent.closeDropped_removeRun member ?_
      intro reading
      simp [reading, Phase.isReady] at ready
  | @publish _ _ run text highlights lookup advanced member computed advance alive =>
      obtain ⟨_, registry, _, _, _, _, rfl⟩ := Session.advanceState?_spec advance
      have kept := Session.removeRun_runs
        ((Session.count { session with registry } .published).note
          (.highlights run.id ⟨run.generation, text, highlights⟩))
        coherent.distinct run
      rw [Session.removeRun_eq]
      exact coherent.settled member advance kept
        (coherent.texts_ne (by simp [computed])) coherent.readers _ _
  | report member failed tracked =>
      exact coherent.finished_removeRun member (by simp [failed, Phase.state])
        (coherent.texts_ne (by simp [failed])) coherent.readers _ _
  | reportUntracked member failed untracked =>
      exact coherent.untracked_removeRun member untracked
        (coherent.texts_ne (by simp [failed])) coherent.readers _ _

end Coherent

end LogTint
