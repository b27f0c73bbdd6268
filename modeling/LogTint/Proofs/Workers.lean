import LogTint.Proofs.Histories

/-!
# Entries and unfinished runs

Wherever a history leads while the scheduler is there, the entry of a document
tells how its unfinished runs stand: which of them is the latest, how far that
one has come, and whether its timer can be cancelled.
-/

namespace LogTint

/-- Whether a run in this phase has taken its document from pending to
computing. -/
def Phase.hasBegun : Phase → Bool
  | .reading | .computing _ | .computed _ _ _ | .failed _ => true
  | .sleeping _ | .due | .waiting | .granted => false

theorem Phase.state_eq (phase : Phase) :
    phase.state = if phase.hasBegun then .computing else .pending := by
  cases phase <;> rfl

/-- Runs of which no two are told apart are one run at most. -/
theorem Run.Distinct.length_filter_le {runs : List Run} {chosen : Run → Bool}
    (distinct : Run.Distinct runs)
    (same : ∀ left ∈ runs, ∀ right ∈ runs, chosen left → chosen right →
      left.key = right.key) :
    (runs.filter chosen).length ≤ 1 := by
  have filtered : ((runs.filter chosen).map Run.key).Nodup :=
    distinct.sublist (List.filter_sublist.map Run.key)
  match all : runs.filter chosen with
  | [] => exact Nat.zero_le 1
  | [_] => exact Nat.le_refl 1
  | left :: right :: rest =>
      rw [all] at filtered
      obtain ⟨leftMember, leftChosen⟩ : left ∈ runs ∧ chosen left = true :=
        List.mem_filter.mp (all ▸ List.mem_cons_self)
      obtain ⟨rightMember, rightChosen⟩ : right ∈ runs ∧ chosen right = true :=
        List.mem_filter.mp (all ▸ List.mem_cons_of_mem _ List.mem_cons_self)
      have sameKey := same left leftMember right rightMember leftChosen rightChosen
      simp [sameKey] at filtered

namespace Session

variable {debts : Debts} {session : Session} {id : DocumentId} {entry : Entry}

/-- The entry of a document tells how its unfinished runs stand. -/
structure Accounts (session : Session) (entry : Entry) : Prop where
  open_ : entry.state ≠ .closed
  bounded : ∀ run ∈ session.runs, run.id = entry.id →
    run.generation ≤ entry.generation
  latest : (session.runs.filter (·.is entry.id entry.generation)).length ≤ 1
  pending : entry.state = .pending ↔
    ∃ run ∈ session.runs, run.is entry.id entry.generation ∧
      run.phase.hasBegun = false
  computing : entry.state = .computing ↔
    ∃ run ∈ session.runs, run.is entry.id entry.generation ∧
      run.phase.hasBegun = true
  idle : entry.state = .idle ↔
    ∀ run ∈ session.runs, run.is entry.id entry.generation = false
  /-- Only the latest run is ever armed, and only before it has begun. -/
  armed : ∀ generation, entry.armed = some generation →
    entry.state = .pending ∧ generation = entry.generation ∧
      ∃ run ∈ session.runs, run.is entry.id generation ∧
        run.origin = .timer ∧ run.phase.hasBegun = false
  /-- There is something to cancel exactly when a run is armed, and runs that
  have begun are not cancelled. -/
  cancelled : (session.cancelArmed entry.id).1 = entry.armed.isSome ∧
    ∀ run ∈ session.runs, run.phase.hasBegun →
      run ∈ (session.cancelArmed entry.id).2.runs
  sleeping : (session.runs.filter fun run =>
    decide (run.id = entry.id) && run.phase.isSleeping).length ≤ 1

theorem cancelArmed_fst {run : Run} {generation : Nat}
    (found : session.registry.find? id = some entry)
    (isArmed : entry.armed = some generation)
    (member : run ∈ session.runs) (runKey : run.key = (id, generation)) :
    (session.cancelArmed id).1 = true := by
  have armed : (session.registry.find? id).bind (·.armed) = some generation := by
    rw [found, Option.bind_some, isArmed]
  unfold cancelArmed
  rw [armed]
  dsimp only
  cases success : session.findRun? id generation with
  | some _ => rfl
  | none =>
      have absent := List.find?_eq_none.mp success run member
      exact absurd (Run.is_iff.mpr runKey) absent

theorem cancelArmed_fst_unarmed (found : session.registry.find? id = some entry)
    (unarmed : entry.armed = none) : (session.cancelArmed id).1 = false := by
  unfold cancelArmed
  rw [found, Option.bind_some, unarmed]

section Coherent

variable (coherent : Coherent debts session)
  (found : session.registry.find? id = some entry)
include coherent found

theorem state_of_latest (open_ : entry.state ≠ .closed) {run : Run}
    (member : run ∈ session.runs) (latest : run.is entry.id entry.generation = true) :
    entry.state = if run.phase.hasBegun then .computing else .pending := by
  rw [← Phase.state_eq]
  exact (coherent.agrees found open_).current run member (Run.is_iff.mp latest)

/-- The latest run has begun or not, and so has its document. -/
theorem state_eq_iff (open_ : entry.state ≠ .closed) (begun : Bool) :
    entry.state = (if begun then .computing else .pending) ↔
      ∃ run ∈ session.runs, run.is entry.id entry.generation ∧
        run.phase.hasBegun = begun := by
  have here := Registry.find?_id found
  constructor
  · intro state
    have notIdle : entry.state ≠ .idle := by
      rw [state]
      cases begun <;> simp
    obtain ⟨run, member, isCurrent, _⟩ := coherent.exists_current found notIdle open_
    have latest := Run.is_iff.mpr (here.symm ▸ isCurrent)
    refine ⟨run, member, latest, ?_⟩
    have same := state_of_latest coherent found open_ member latest
    rw [state] at same
    cases begun <;> cases begunRun : run.phase.hasBegun <;>
      simp [begunRun] at same <;> rfl
  · rintro ⟨run, member, latest, rfl⟩
    exact state_of_latest coherent found open_ member latest

theorem idle_iff (open_ : entry.state ≠ .closed) :
    entry.state = .idle ↔
      ∀ run ∈ session.runs, run.is entry.id entry.generation = false := by
  constructor
  · intro idle run member
    cases latest : run.is entry.id entry.generation with
    | false => rfl
    | true =>
        have state := state_of_latest coherent found open_ member latest
        rw [idle] at state
        split at state <;> cases state
  · intro none
    refine (coherent.agrees found open_).idle fun run member isCurrent => ?_
    have absent := none run member
    rw [Run.is_iff.mpr isCurrent] at absent
    cases absent

/-- An armed run is the latest and has not begun. -/
theorem armed_run (open_ : entry.state ≠ .closed) {generation : Nat}
    (armed : entry.armed = some generation) :
    generation = entry.generation ∧ ∃ run ∈ session.runs,
      run.key = (entry.id, generation) ∧ run.origin = .timer ∧
        run.phase.hasBegun = false := by
  have here := Registry.find?_id found
  obtain ⟨latest, run, member, runKey, origin⟩ :=
    (coherent.agrees found open_).armed generation armed
  refine ⟨latest, run, member, runKey, origin, ?_⟩
  have pending := coherent.armed found armed run member (here ▸ runKey)
  rw [Phase.state_eq] at pending
  cases begun : run.phase.hasBegun with
  | false => rfl
  | true => simp [begun] at pending

theorem cancelArmed_fst_eq (open_ : entry.state ≠ .closed) :
    (session.cancelArmed entry.id).1 = entry.armed.isSome := by
  have here := Registry.find?_id found
  cases armed : entry.armed with
  | none => exact cancelArmed_fst_unarmed (here ▸ found) armed
  | some generation =>
      obtain ⟨_, run, member, runKey, _⟩ := armed_run coherent found open_ armed
      exact cancelArmed_fst (here ▸ found) armed member runKey

omit found in
/-- Runs that have begun are not cancelled. -/
theorem mem_cancelArmed {run : Run} (member : run ∈ session.runs)
    (begun : run.phase.hasBegun = true) : run ∈ (session.cancelArmed id).2.runs := by
  obtain ⟨registry, runs, _, kept, cancelled⟩ :=
    cancelArmed_spec session coherent.distinct id
  rw [cancelled]
  refine kept.mem member ?_ ?_
  · rintro ⟨_, isArmed⟩
    obtain ⟨other, foundOther, armed⟩ := isArmed_iff.mp isArmed
    have pending := coherent.armed foundOther armed run member rfl
    rw [Phase.state_eq, begun] at pending
    cases pending
  · intro waiting
    rw [waiting] at begun
    cases begun

theorem accounts_of_coherent (open_ : entry.state ≠ .closed) :
    session.Accounts entry := by
  have agrees := coherent.agrees found open_
  have here := Registry.find?_id found
  constructor
  case open_ => exact open_
  case bounded =>
    intro run member sameId
    exact (coherent.bounded run member (sameId.trans here ▸ found)).1
  case latest =>
    refine coherent.distinct.length_filter_le ?_
    intro left _ right _ leftCurrent rightCurrent
    exact (Run.is_iff.mp leftCurrent).trans (Run.is_iff.mp rightCurrent).symm
  case pending => exact state_eq_iff coherent found open_ false
  case computing => exact state_eq_iff coherent found open_ true
  case idle => exact idle_iff coherent found open_
  case armed =>
    intro generation armed
    obtain ⟨latest, run, member, runKey, origin, begun⟩ :=
      armed_run coherent found open_ armed
    have isCurrent := Run.is_iff.mpr runKey
    refine ⟨?_, latest, run, member, isCurrent, origin, begun⟩
    exact (state_eq_iff coherent found open_ false).mpr
      ⟨run, member, latest ▸ isCurrent, begun⟩
  case cancelled =>
    exact ⟨cancelArmed_fst_eq coherent found open_, fun _ member begun =>
      mem_cancelArmed coherent member begun⟩
  case sleeping =>
    refine coherent.distinct.length_filter_le ?_
    intro left leftMember right rightMember leftChosen rightChosen
    simp only [Bool.and_eq_true, decide_eq_true_eq] at leftChosen rightChosen
    have leftArmed := agrees.sleeping left leftMember leftChosen.1 leftChosen.2
    have rightArmed := agrees.sleeping right rightMember rightChosen.1 rightChosen.2
    rw [leftArmed] at rightArmed
    exact Prod.ext (leftChosen.1.trans rightChosen.1.symm) (Option.some.inj rightArmed)

end Coherent

/-- While the scheduler is there, every entry tells how its runs stand. -/
theorem accounts_of_moves {settings : Settings} {cache : Option Cache}
    {moves : List Move}
    (reached : (initial settings cache).moves? moves = some session)
    (present : session.dropped = false)
    (found : session.registry.find? id = some entry) :
    session.Accounts entry := by
  have coherent := coherent_of_moves reached (.initial settings cache)
  exact accounts_of_coherent coherent found (coherent.present present found)

theorem accounts_of_firstEdit :
    ∃ session entry, (initial .standard none).moves? (firstEdit []) = some session ∧
      session.dropped = false ∧ session.registry.find? ⟨1⟩ = some entry ∧
      entry.armed = some 1 ∧ session.Accounts entry := by
  have reached : (initial .standard none).moves? (firstEdit []) = some _ := rfl
  exact ⟨_, ⟨⟨1⟩, 0, .pending, 1, some 1⟩, reached, rfl, rfl, rfl,
    @accounts_of_moves _ ⟨1⟩ _ _ _ _ reached rfl rfl⟩

end Session

end LogTint
