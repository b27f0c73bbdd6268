import LogTint.Proofs.Effect

/-!
# Coherence of entries and runs

The entry of a document and its runs are changed in different places.  They
agree all the same: the state of a document is that of the run of its latest
generation, and the armed run is that run while it has not begun.  `Coherent`
says so of whole sessions, and every effect keeps it.
-/

namespace LogTint

namespace Entry

/-- The entry of a document whose latest run has just joined the others. -/
def joined (new : Run) (entry : Entry) : Entry :=
  { entry with
    state := if entry.state = .closed then .closed else .pending
    armed := if new.phase.isSleeping then some new.generation else none }

/-- The entry of a document tells how its latest run stands. -/
structure Agrees (entry : Entry) (runs : List Run) : Prop where
  current : ∀ run ∈ runs, run.key = (entry.id, entry.generation) →
    entry.state = run.phase.state
  idle : (∀ run ∈ runs, run.key ≠ (entry.id, entry.generation)) →
    entry.state = .idle
  armed : ∀ generation, entry.armed = some generation →
    generation = entry.generation ∧
      ∃ run ∈ runs, run.key = (entry.id, generation) ∧ run.origin = .timer
  sleeping : ∀ run ∈ runs, run.id = entry.id → run.phase.isSleeping →
    entry.armed = some run.generation

namespace Agrees

variable {entry : Entry} {runs after : List Run} {run : Run}
  {keep : DocumentId × Nat → Prop}

theorem kept (agrees : entry.Agrees runs) (kept : Run.Kept keep runs after)
    (stays : keep (entry.id, entry.generation)) : entry.Agrees after where
  current later member isCurrent := by
    obtain ⟨earlier, earlierMember, _, continues⟩ := kept.origin later member
    rw [continues.state]
    exact agrees.current earlier earlierMember (continues.key.symm.trans isCurrent)
  idle none := by
    apply agrees.idle
    intro run member isCurrent
    obtain ⟨later, laterMember, continues⟩ :=
      kept.lasts run member (isCurrent ▸ stays)
    exact none later laterMember (continues.key.trans isCurrent)
  armed generation isArmed := by
    obtain ⟨same, run, member, runKey, origin⟩ := agrees.armed generation isArmed
    have keeps : keep run.key := by
      rw [runKey, same]
      exact stays
    obtain ⟨later, laterMember, continues⟩ := kept.lasts run member keeps
    exact ⟨same, later, laterMember, continues.key.trans runKey,
      continues.origin.trans origin⟩
  sleeping later member here asleep := by
    obtain ⟨earlier, earlierMember, _, continues⟩ := kept.origin later member
    rw [continues.generation]
    exact agrees.sleeping earlier earlierMember (continues.id ▸ here)
      (continues.isSleeping ▸ asleep)

theorem append_other (agrees : entry.Agrees runs) (different : run.id ≠ entry.id) :
    entry.Agrees (runs ++ [run]) where
  current other member isCurrent := by
    rcases List.mem_append.mp member with earlier | last
    · exact agrees.current other earlier isCurrent
    · rw [List.mem_singleton.mp last] at isCurrent
      exact absurd (congrArg Prod.fst isCurrent) different
  idle none :=
    agrees.idle fun other member => none other (List.mem_append_left _ member)
  armed generation isArmed := by
    obtain ⟨same, other, member, otherKey⟩ := agrees.armed generation isArmed
    exact ⟨same, other, List.mem_append_left _ member, otherKey⟩
  sleeping other member here asleep := by
    rcases List.mem_append.mp member with earlier | last
    · exact agrees.sleeping other earlier here asleep
    · rw [List.mem_singleton.mp last] at here
      exact absurd here different

/-- A run may enter a phase that belongs to the same state of its document. -/
theorem enter {others : List Run} {phase : Phase} (agrees : entry.Agrees runs)
    (distinct : Run.Distinct runs) (member : run ∈ runs)
    (kept : Run.Kept (· ≠ run.key) runs others)
    (sameState : phase.state = run.phase.state) (awake : phase.isSleeping = false) :
    entry.Agrees (others ++ [{ run with phase }]) where
  current other otherMember isCurrent := by
    rcases List.mem_append.mp otherMember with earlier | last
    · obtain ⟨before, beforeMember, _, continues⟩ := kept.origin other earlier
      rw [continues.state]
      exact agrees.current before beforeMember (continues.key.symm.trans isCurrent)
    · rw [List.mem_singleton.mp last] at isCurrent ⊢
      exact (agrees.current run member isCurrent).trans sameState.symm
  idle none := by
    apply agrees.idle
    intro other otherMember isCurrent
    by_cases same : other.key = run.key
    · exact none _ (List.mem_append_right _ (List.mem_singleton_self _))
        (same.symm.trans isCurrent)
    · obtain ⟨later, laterMember, continues⟩ := kept.lasts other otherMember same
      exact none later (List.mem_append_left _ laterMember)
        (continues.key.trans isCurrent)
  armed generation isArmed := by
    obtain ⟨latest, other, otherMember, otherKey, origin⟩ :=
      agrees.armed generation isArmed
    refine ⟨latest, ?_⟩
    by_cases same : other.key = run.key
    · refine ⟨_, List.mem_append_right _ (List.mem_singleton_self _),
        same.symm.trans otherKey, ?_⟩
      rw [distinct.eq otherMember member same] at origin
      exact origin
    · obtain ⟨later, laterMember, continues⟩ := kept.lasts other otherMember same
      exact ⟨later, List.mem_append_left _ laterMember,
        continues.key.trans otherKey, continues.origin.trans origin⟩
  sleeping other otherMember here asleep := by
    rcases List.mem_append.mp otherMember with earlier | last
    · obtain ⟨before, beforeMember, _, continues⟩ := kept.origin other earlier
      rw [continues.generation]
      exact agrees.sleeping before beforeMember (continues.id ▸ here)
        (continues.isSleeping ▸ asleep)
    · rw [List.mem_singleton.mp last] at asleep
      exact absurd asleep (by simp [awake])

/-- A document whose latest run ends is idle. -/
theorem leave (agrees : entry.Agrees runs) (kept : Run.Kept keep runs after)
    (gone : ¬keep (entry.id, entry.generation)) (unarmed : entry.armed = none) :
    Agrees { entry with state := .idle } after where
  current other member isCurrent := by
    have keeps := kept.keeps_of_mem member
    rw [isCurrent] at keeps
    exact absurd keeps gone
  idle _ := rfl
  armed generation isArmed := by
    rw [show entry.armed = some generation from isArmed] at unarmed
    cases unarmed
  sleeping other member here asleep := by
    obtain ⟨before, beforeMember, _, continues⟩ := kept.origin other member
    have isArmed := agrees.sleeping before beforeMember (continues.id ▸ here)
      (continues.isSleeping ▸ asleep)
    rw [unarmed] at isArmed
    cases isArmed

/-- A document without runs is idle. -/
theorem of_no_runs (none : ∀ run ∈ runs, run.id ≠ entry.id) (idle : entry.state = .idle)
    (unarmed : entry.armed = .none) : entry.Agrees runs where
  current run member isCurrent :=
    absurd (congrArg Prod.fst isCurrent) (none run member)
  idle _ := idle
  armed generation isArmed := by
    rw [unarmed] at isArmed
    cases isArmed
  sleeping run member same := absurd same (none run member)

/-- An edit gives its document a generation that no run has, and cancels the run
that may be asleep. -/
theorem renewed (agrees : entry.Agrees runs) (notClosed : entry.state ≠ .closed)
    (kept : Run.Kept keep runs after)
    (bound : ∀ run ∈ after, run.id = entry.id → run.generation ≤ entry.generation)
    (cancels : ∀ generation, entry.armed = some generation →
      ¬keep (entry.id, generation)) :
    (entry.renewed .idle).Agrees after := by
  rw [Entry.renewed, if_neg notClosed]
  constructor
  case current =>
    intro run member isCurrent
    have small := bound run member (congrArg Prod.fst isCurrent)
    have large : run.generation = entry.generation + 1 := congrArg Prod.snd isCurrent
    omega
  case idle => exact fun _ => rfl
  case armed =>
    intro generation isArmed
    cases isArmed
  case sleeping =>
    intro run member sameId asleep
    obtain ⟨before, beforeMember, keeps, continues⟩ := kept.origin run member
    have beforeId : before.id = entry.id := continues.id.symm.trans sameId
    have armed := agrees.sleeping before beforeMember beforeId
      (continues.isSleeping ▸ asleep)
    rw [show before.key = (entry.id, before.generation) from
      Prod.ext beforeId rfl] at keeps
    exact absurd keeps (cancels before.generation armed)

/-- A run of the latest generation joins the others. -/
theorem joined {new : Run} (agrees : entry.Agrees runs)
    (notClosed : entry.state ≠ .closed)
    (newKey : new.key = (entry.id, entry.generation))
    (pending : new.phase.state = .pending)
    (timer : new.phase.isSleeping → new.origin = .timer)
    (fresh : ∀ run ∈ runs, run.id = entry.id → run.generation < entry.generation) :
    (entry.joined new).Agrees (runs ++ [new]) := by
  have newMember : new ∈ runs ++ [new] :=
    List.mem_append_right _ (List.mem_singleton_self _)
  constructor
  case current =>
    intro run member (isCurrent : run.key = (entry.id, entry.generation))
    rcases List.mem_append.mp member with earlier | last
    · have less := fresh run earlier (congrArg Prod.fst isCurrent)
      have same : run.generation = entry.generation := congrArg Prod.snd isCurrent
      omega
    · rw [List.mem_singleton.mp last, pending, Entry.joined, if_neg notClosed]
  case idle => exact fun none => absurd newKey (none new newMember)
  case armed =>
    intro generation isArmed
    unfold Entry.joined at isArmed
    dsimp only at isArmed
    split at isArmed
    case isFalse => cases isArmed
    case isTrue asleep =>
      cases isArmed
      have latest : new.generation = entry.generation := congrArg Prod.snd newKey
      exact ⟨latest, new, newMember, newKey.trans (latest ▸ rfl), timer asleep⟩
  case sleeping =>
    intro run member (sameId : run.id = entry.id) asleep
    rcases List.mem_append.mp member with earlier | last
    · obtain ⟨same, _⟩ := agrees.armed _ (agrees.sleeping run earlier sameId asleep)
      have less := fresh run earlier sameId
      omega
    · rw [List.mem_singleton.mp last] at asleep ⊢
      rw [Entry.joined, if_pos asleep]

/-- The latest run of a pending document begins to read. -/
theorem begun {others : List Run} (agrees : entry.Agrees runs)
    (runKey : run.key = (entry.id, entry.generation))
    (kept : Run.Kept (· ≠ run.key) runs others) :
    (entry.advanced .pending .computing).Agrees
      (others ++ [{ run with phase := .reading }]) := by
  constructor
  case current =>
    intro other otherMember isCurrent
    rcases List.mem_append.mp otherMember with earlier | last
    · exact absurd (isCurrent.trans runKey.symm) (kept.keeps_of_mem earlier)
    · rw [List.mem_singleton.mp last]
      rfl
  case idle =>
    intro none
    exact absurd runKey (none { run with phase := .reading }
      (List.mem_append_right _ (List.mem_singleton_self _)))
  case armed =>
    intro generation isArmed
    simp [Entry.advanced] at isArmed
  case sleeping =>
    intro other otherMember sameId asleep
    rcases List.mem_append.mp otherMember with earlier | last
    · obtain ⟨before, beforeMember, different, continues⟩ := kept.origin other earlier
      have beforeId : before.id = entry.id := continues.id.symm.trans sameId
      obtain ⟨same, _⟩ := agrees.armed _
        (agrees.sleeping before beforeMember beforeId (continues.isSleeping ▸ asleep))
      refine absurd ?_ different
      rw [runKey, ← beforeId, ← same]
      rfl
    · rw [List.mem_singleton.mp last] at asleep
      cases asleep

end Agrees

end Entry

/-- Entries, runs and debts of a session fit together. -/
structure Coherent (debts : Debts) (session : Session) : Prop where
  ids : session.registry.ids.Nodup
  known : ∀ {id entry}, session.registry.find? id = some entry →
    id.number < session.nextId
  distinct : Run.Distinct session.runs
  numbered : ∀ run ∈ session.runs, run.id.number < session.nextId
  bounded : ∀ run ∈ session.runs, ∀ {entry},
    session.registry.find? run.id = some entry →
      run.generation ≤ entry.generation ∧ run.source = entry.source
  agrees : ∀ {id entry}, session.registry.find? id = some entry →
    entry.state ≠ .closed → entry.Agrees session.runs
  armed : ∀ {id entry generation}, session.registry.find? id = some entry →
    entry.armed = some generation →
      ∀ run ∈ session.runs, run.key = (id, generation) → run.phase.state = .pending
  present : session.dropped = false → ∀ {id entry},
    session.registry.find? id = some entry → entry.state ≠ .closed
  gone : session.dropped = true → session.held = false ∧
    ∀ {id entry}, session.registry.find? id = some entry → entry.state = .closed
  lengths : ∀ asked ∈ debts.lengths, asked.1.number < session.nextId ∧
    ∀ {entry}, session.registry.find? asked.1 = some entry → entry.source = asked.2
  texts : ∀ run ∈ debts.texts, run ∈ session.runs ∧ run.phase = .reading ∧
    run.source < session.sources.length
  readers : debts.texts.Nodup

/-- Nothing is incoherent before the first move. -/
theorem Coherent.initial (settings : Settings) (cache : Option Cache) :
    Coherent (Session.initial settings cache).debts
      (Session.initial settings cache) where
  ids := List.nodup_nil
  known found := by cases found
  distinct := List.nodup_nil
  numbered := List.forall_mem_nil _
  bounded := List.forall_mem_nil _
  agrees found := by cases found
  armed found := by cases found
  present _ _ _ found := by cases found
  gone dropped := by cases dropped
  lengths := List.forall_mem_nil _
  texts := List.forall_mem_nil _
  readers := List.nodup_nil

/-- What is tracked after a change was tracked before, and every run goes back
to a run of before. -/
structure Session.Retains (before after : Session) : Prop where
  nextId : after.nextId = before.nextId
  held : after.held = true → before.held = true
  dropped : after.dropped = before.dropped
  entries : ∀ {id entry}, after.registry.find? id = some entry →
    ∃ earlier, before.registry.find? id = some earlier ∧
      earlier.generation ≤ entry.generation ∧ entry.source = earlier.source ∧
      (entry.state = .closed ↔ earlier.state = .closed) ∧
      (entry.armed = earlier.armed ∨ entry.armed = none)
  runs : ∀ run ∈ after.runs, ∃ earlier ∈ before.runs, run.key = earlier.key ∧
    run.source = earlier.source ∧
    (run.phase.state = earlier.phase.state ∨
      ∀ entry, after.registry.find? run.id = some entry → entry.armed = none)

namespace Coherent

variable {debts after : Debts} {session final : Session}

theorem retain (coherent : Coherent debts session)
    (retains : session.Retains final) (ids : final.registry.ids.Nodup)
    (distinct : Run.Distinct final.runs)
    (agrees : ∀ {id entry}, final.registry.find? id = some entry →
      entry.state ≠ .closed → entry.Agrees final.runs)
    (lengths : after.lengths ⊆ debts.lengths)
    (texts : ∀ run ∈ after.texts, run ∈ final.runs ∧ run.phase = .reading ∧
      run.source < final.sources.length)
    (readers : after.texts.Nodup) :
    Coherent after final where
  ids := ids
  known found := by
    obtain ⟨earlier, foundBefore, _⟩ := retains.entries found
    rw [retains.nextId]
    exact coherent.known foundBefore
  distinct := distinct
  numbered run member := by
    obtain ⟨earlier, earlierMember, sameKey, _⟩ := retains.runs run member
    rw [retains.nextId, show run.id = earlier.id from congrArg Prod.fst sameKey]
    exact coherent.numbered earlier earlierMember
  bounded run member entry found := by
    obtain ⟨earlier, earlierMember, sameKey, sameSource, _⟩ :=
      retains.runs run member
    obtain ⟨entryBefore, foundBefore, generation, source, _⟩ :=
      retains.entries found
    rw [show run.id = earlier.id from congrArg Prod.fst sameKey] at foundBefore
    rw [show run.generation = earlier.generation from congrArg Prod.snd sameKey,
      sameSource, source]
    obtain ⟨bound, fromSource⟩ := coherent.bounded earlier earlierMember foundBefore
    exact ⟨Nat.le_trans bound generation, fromSource⟩
  agrees := agrees
  armed {id entry generation} found isArmed run member runKey := by
    obtain ⟨earlier, earlierMember, sameKey, _, sameState⟩ :=
      retains.runs run member
    rcases sameState with sameState | unarmed
    · obtain ⟨entryBefore, foundBefore, _, _, _, sameArmed | unarmed⟩ :=
        retains.entries found
      · rw [sameState]
        exact coherent.armed foundBefore (sameArmed ▸ isArmed) earlier
          earlierMember (sameKey.symm.trans runKey)
      · rw [unarmed] at isArmed
        cases isArmed
    · rw [unarmed entry (by rw [show run.id = id from congrArg Prod.fst runKey,
        found])] at isArmed
      cases isArmed
  present present id entry found := by
    obtain ⟨earlier, foundBefore, _, _, closed, _⟩ := retains.entries found
    rw [Ne, closed]
    exact coherent.present (retains.dropped ▸ present) foundBefore
  gone dropped := by
    obtain ⟨released, allClosed⟩ := coherent.gone (retains.dropped ▸ dropped)
    refine ⟨?_, ?_⟩
    · cases held : final.held with
      | false => rfl
      | true => exact absurd (retains.held held) (by simp [released])
    · intro id entry found
      obtain ⟨earlier, foundBefore, _, _, closed, _⟩ := retains.entries found
      exact closed.mpr (allClosed foundBefore)
  lengths asked member := by
    obtain ⟨number, sources⟩ := coherent.lengths asked (lengths member)
    refine ⟨retains.nextId ▸ number, ?_⟩
    intro entry found
    obtain ⟨earlier, foundBefore, _, source, _⟩ := retains.entries found
    rw [source]
    exact sources foundBefore
  texts := texts
  readers := readers

/-- What is not written in the books of the scheduler does not matter. -/
theorem congr (coherent : Coherent debts session)
    (registry : final.registry = session.registry)
    (runs : final.runs = session.runs) (nextId : final.nextId = session.nextId)
    (dropped : final.dropped = session.dropped)
    (held : final.held = true → session.held = true)
    (sources : session.sources.length ≤ final.sources.length)
    (lengths : after.lengths ⊆ debts.lengths) (texts : after.texts = debts.texts) :
    Coherent after final := by
  refine coherent.retain ⟨nextId, held, dropped, ?_, ?_⟩
    (registry ▸ coherent.ids) (runs ▸ coherent.distinct) ?_ lengths ?_
    (texts ▸ coherent.readers)
  · intro id entry found
    exact ⟨entry, registry ▸ found, Nat.le_refl _, rfl, .rfl, .inl rfl⟩
  · intro run member
    exact ⟨run, runs ▸ member, rfl, rfl, .inl rfl⟩
  · intro id entry found open_
    rw [runs]
    exact coherent.agrees (registry ▸ found) open_
  · intro run member
    obtain ⟨runMember, reading, source⟩ := coherent.texts run (texts ▸ member)
    exact ⟨runs ▸ runMember, reading, Nat.lt_of_lt_of_le source sources⟩

/-- A scheduler that the host holds is not gone. -/
theorem present_of_held (coherent : Coherent debts session) (held : session.held = true) :
    session.dropped = false := by
  cases dropped : session.dropped with
  | false => rfl
  | true => cases (coherent.gone dropped).1.symm.trans held

/-- A run that is reading is not armed. -/
theorem reading_not_armed (coherent : Coherent debts session) {run : Run}
    (member : run ∈ session.runs) (reading : run.phase = .reading) :
    ¬session.IsArmed run.key := by
  intro isArmed
  obtain ⟨entry, found, armed⟩ := Session.isArmed_iff.mp isArmed
  have pending := coherent.armed found armed run member rfl
  rw [reading] at pending
  cases pending

/-- A reader that is kept goes on reading. -/
theorem reads_on {runs : List Run} {reader : Run} {keep : DocumentId × Nat → Prop}
    (coherent : Coherent debts session) (kept : Run.Kept keep session.runs runs)
    (owed : reader ∈ debts.texts) (keeps : keep reader.key) :
    reader ∈ runs ∧ reader.phase = .reading ∧
      reader.source < session.sources.length := by
  obtain ⟨present, reading, source⟩ := coherent.texts reader owed
  exact ⟨kept.mem present keeps (by simp [reading]), reading, source⟩

theorem reader_key_ne {run reader : Run} (coherent : Coherent debts session)
    (member : run ∈ session.runs) (owed : reader ∈ debts.texts)
    (different : reader ≠ run) : reader.key ≠ run.key := by
  obtain ⟨present, _⟩ := coherent.texts reader owed
  exact fun same => different (coherent.distinct.eq present member same)

/-- A document that waits for its latest run has it among the runs. -/
theorem exists_current (coherent : Coherent debts session) {id : DocumentId}
    {entry : Entry} (found : session.registry.find? id = some entry)
    (notIdle : entry.state ≠ .idle) (open_ : entry.state ≠ .closed) :
    ∃ run ∈ session.runs, run.key = (id, entry.generation) ∧
      entry.state = run.phase.state := by
  have agrees := coherent.agrees found open_
  by_contra none
  push Not at none
  apply notIdle
  apply agrees.idle
  intro run member isCurrent
  have here := Registry.find?_id found
  exact none run member (here ▸ isCurrent) (agrees.current run member isCurrent)

end Coherent

end LogTint
