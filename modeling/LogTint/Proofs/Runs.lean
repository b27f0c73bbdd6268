import LogTint.Proofs.Registry
import LogTint.Schedule.Working

/-!
# Runs that go on and runs that end

Document and generation tell runs apart.  Ending a run frees its lock, and the
run that has waited for it longest is given the lock in the same stroke, so
the runs that are left are those of before up to one grant.  `Run.Kept` says
so for an arbitrary choice of runs that are left.
-/

namespace LogTint

namespace Phase

/-- The state of a document whose latest run is in this phase. -/
def state : Phase → DocumentState
  | .sleeping _ | .due | .waiting | .granted => .pending
  | .reading | .computing _ | .computed _ _ _ | .failed _ => .computing

/-- Whether a run in this phase waits for its document to be left alone. -/
def isSleeping : Phase → Bool
  | .sleeping _ => true
  | _ => false

/-- The text that a run in this phase has read. -/
def text? : Phase → Option Text
  | .computing text | .computed text _ _ => some text
  | _ => none

/-- Whether a run in this phase holds neither a text nor the reason why its
computation broke off. -/
def isBare : Phase → Bool
  | .sleeping _ | .due | .waiting | .granted | .reading => true
  | .computing _ | .computed _ _ _ | .failed _ => false

theorem text?_of_isBare {phase : Phase} (bare : phase.isBare = true) :
    phase.text? = none := by
  cases phase <;> first | rfl | cases bare

end Phase

namespace Run

/-- What tells a run from all others. -/
def key (run : Run) : DocumentId × Nat := (run.id, run.generation)

@[simp] theorem key_withPhase (run : Run) (phase : Phase) :
    key { run with phase } = run.key := rfl

theorem is_iff {run : Run} {id : DocumentId} {generation : Nat} :
    run.is id generation = true ↔ run.key = (id, generation) := by
  simp [is, key]

/-- No two runs are on behalf of the same edit. -/
def Distinct (runs : List Run) : Prop := (runs.map key).Nodup

theorem Distinct.eq {runs : List Run} (distinct : Distinct runs)
    {left right : Run} (leftMember : left ∈ runs) (rightMember : right ∈ runs)
    (sameKey : left.key = right.key) : left = right :=
  List.inj_on_of_nodup_map distinct leftMember rightMember sameKey

theorem Distinct.append {runs : List Run} {run : Run} (distinct : Distinct runs)
    (fresh : ∀ other ∈ runs, other.key ≠ run.key) :
    Distinct (runs ++ [run]) := by
  unfold Distinct
  rw [List.map_append, List.nodup_append]
  refine ⟨distinct, by simp, ?_⟩
  intro key member other otherMember same
  obtain ⟨earlier, earlierMember, rfl⟩ := List.mem_map.mp member
  simp only [List.map_cons, List.map_nil, List.mem_singleton] at otherMember
  exact fresh earlier earlierMember (same.trans otherMember)

/-- A run stays as it is or is given the lock that it was waiting for. -/
def Continues (before after : Run) : Prop :=
  after = before ∨
    before.phase = .waiting ∧ after = { before with phase := .granted }

namespace Continues

variable {before middle after : Run}

theorem refl (run : Run) : Continues run run := .inl rfl

theorem trans (first : Continues before middle)
    (second : Continues middle after) : Continues before after := by
  rcases first with rfl | ⟨waiting, rfl⟩
  · exact second
  · rcases second with rfl | ⟨impossible, _⟩
    · exact .inr ⟨waiting, rfl⟩
    · cases impossible

theorem id (continues : Continues before after) : after.id = before.id := by
  rcases continues with rfl | ⟨_, rfl⟩ <;> rfl

theorem generation (continues : Continues before after) :
    after.generation = before.generation := by
  rcases continues with rfl | ⟨_, rfl⟩ <;> rfl

theorem source (continues : Continues before after) :
    after.source = before.source := by
  rcases continues with rfl | ⟨_, rfl⟩ <;> rfl

theorem config (continues : Continues before after) :
    after.config = before.config := by
  rcases continues with rfl | ⟨_, rfl⟩ <;> rfl

theorem origin (continues : Continues before after) :
    after.origin = before.origin := by
  rcases continues with rfl | ⟨_, rfl⟩ <;> rfl

theorem key (continues : Continues before after) : after.key = before.key := by
  rcases continues with rfl | ⟨_, rfl⟩ <;> rfl

theorem state (continues : Continues before after) :
    after.phase.state = before.phase.state := by
  rcases continues with rfl | ⟨waiting, rfl⟩
  · rfl
  · simp [waiting, Phase.state]

theorem isSleeping (continues : Continues before after) :
    after.phase.isSleeping = before.phase.isSleeping := by
  rcases continues with rfl | ⟨waiting, rfl⟩
  · rfl
  · simp [waiting, Phase.isSleeping]

/-- A run that does not wait for the lock stays as it is. -/
theorem eq (continues : Continues before after)
    (notWaiting : before.phase ≠ .waiting) : after = before := by
  rcases continues with same | ⟨waiting, _⟩
  · exact same
  · exact absurd waiting notWaiting

end Continues

/-- The runs after are those of the runs before whose key is kept, up to
grants of a lock. -/
structure Kept (keep : DocumentId × Nat → Prop) (before after : List Run) :
    Prop where
  origin : ∀ run ∈ after, ∃ earlier ∈ before,
    keep earlier.key ∧ earlier.Continues run
  lasts : ∀ run ∈ before, keep run.key → ∃ later ∈ after, run.Continues later
  distinct : Distinct after

namespace Kept

variable {keep other : DocumentId × Nat → Prop} {before middle after : List Run}

theorem refl (distinct : Distinct before) : Kept (fun _ => True) before before where
  origin run member := ⟨run, member, trivial, .refl run⟩
  lasts run member _ := ⟨run, member, .refl run⟩
  distinct := distinct

theorem congr (kept : Kept keep before after)
    (same : ∀ run ∈ before, keep run.key ↔ other run.key) :
    Kept other before after where
  origin run member := by
    obtain ⟨earlier, earlierMember, keeps, continues⟩ := kept.origin run member
    exact ⟨earlier, earlierMember, (same earlier earlierMember).mp keeps, continues⟩
  lasts run member keeps := kept.lasts run member ((same run member).mpr keeps)
  distinct := kept.distinct

theorem trans (first : Kept keep before middle) (second : Kept other middle after) :
    Kept (fun key => keep key ∧ other key) before after where
  origin run member := by
    obtain ⟨between, betweenMember, otherKeeps, later⟩ := second.origin run member
    obtain ⟨earlier, earlierMember, keeps, sooner⟩ :=
      first.origin between betweenMember
    exact ⟨earlier, earlierMember, ⟨keeps, sooner.key ▸ otherKeeps⟩,
      sooner.trans later⟩
  lasts run member keeps := by
    obtain ⟨between, betweenMember, sooner⟩ := first.lasts run member keeps.1
    obtain ⟨final, finalMember, later⟩ :=
      second.lasts between betweenMember (sooner.key.symm ▸ keeps.2)
    exact ⟨final, finalMember, sooner.trans later⟩
  distinct := second.distinct

/-- Runs that do not wait for a lock stay as they are. -/
theorem mem (kept : Kept keep before after) {run : Run} (member : run ∈ before)
    (keeps : keep run.key) (notWaiting : run.phase ≠ .waiting) :
    run ∈ after := by
  obtain ⟨later, laterMember, continues⟩ := kept.lasts run member keeps
  rwa [continues.eq notWaiting] at laterMember

/-- What is left of the runs stands as it stood before. -/
theorem stands {run : Run} {Otherwise : Prop} (kept : Kept keep before after)
    (member : run ∈ after) :
    ∃ earlier ∈ before, run.key = earlier.key ∧ run.source = earlier.source ∧
      (run.phase.state = earlier.phase.state ∨ Otherwise) := by
  obtain ⟨earlier, earlierMember, _, continues⟩ := kept.origin run member
  exact ⟨earlier, earlierMember, continues.key, continues.source, .inl continues.state⟩

theorem keeps_of_mem (kept : Kept keep before after) {run : Run}
    (member : run ∈ after) : keep run.key := by
  obtain ⟨earlier, _, keeps, continues⟩ := kept.origin run member
  rwa [continues.key]

end Kept

theorem kept_filter {runs : List Run} (distinct : Distinct runs) (run : Run) :
    Kept (· ≠ run.key) runs
      (runs.filter (!·.is run.id run.generation)) where
  origin other member := by
    obtain ⟨otherMember, different⟩ := List.mem_filter.mp member
    refine ⟨other, otherMember, ?_, .refl other⟩
    intro same
    simp [is_iff.mpr same] at different
  lasts other member different := by
    refine ⟨other, List.mem_filter.mpr ⟨member, ?_⟩, .refl other⟩
    cases same : other.is run.id run.generation with
    | false => rfl
    | true => exact absurd (is_iff.mp same) different
  distinct := distinct.sublist (List.filter_sublist.map key)

end Run

namespace Session

variable {session : Session} {run : Run} {id : DocumentId}

/-- Whether a key is that of the run whose timer is armed for its document. -/
def IsArmed (session : Session) (key : DocumentId × Nat) : Prop :=
  (session.registry.find? key.1).bind (·.armed) = some key.2

theorem findRun?_mem {generation : Nat}
    (found : session.findRun? id generation = some run) : run ∈ session.runs :=
  List.mem_of_find?_eq_some found

theorem findRun?_key {generation : Nat}
    (found : session.findRun? id generation = some run) :
    run.key = (id, generation) := by
  have answer : run.is id generation = true := by
    simpa using List.find?_some found
  exact Run.is_iff.mp answer

/-- A run that enters a phase stands behind the others, which are kept. -/
theorem enterPhase_runs (session : Session)
    (distinct : Run.Distinct session.runs) (run : Run)
    (phase : Phase) :
    ∃ others, Run.Kept (· ≠ run.key) session.runs others ∧
      (session.enterPhase run phase).runs = others ++ [{ run with phase }] :=
  ⟨_, Run.kept_filter distinct run, rfl⟩

theorem passLock_eq (session : Session) (id : DocumentId) :
    session.passLock id = { session with runs := (session.passLock id).runs } := by
  unfold passLock
  split <;> rfl

theorem removeRun_eq (session : Session) (run : Run) :
    session.removeRun run = { session with runs := (session.removeRun run).runs } := by
  unfold removeRun
  dsimp only
  split
  · exact passLock_eq _ run.id
  · rfl

theorem passLock_runs (session : Session)
    (distinct : Run.Distinct session.runs) (id : DocumentId) :
    Run.Kept (fun _ => True) session.runs (session.passLock id).runs := by
  unfold passLock
  split
  case h_2 => exact .refl distinct
  case h_1 waiting success =>
    have member : waiting ∈ session.runs := List.mem_of_find?_eq_some success
    have isWaiting : waiting.phase = .waiting := by
      have answer := List.find?_some success
      simp only [Bool.and_eq_true, decide_eq_true_eq] at answer
      exact answer.2
    have grant : waiting.Continues { waiting with phase := .granted } :=
      .inr ⟨isWaiting, rfl⟩
    obtain ⟨others, kept, runs⟩ := enterPhase_runs session distinct waiting .granted
    rw [runs]
    refine ⟨?_, ?_, ?_⟩
    · intro run runMember
      rcases List.mem_append.mp runMember with other | last
      · obtain ⟨earlier, earlierMember, _, continues⟩ := kept.origin run other
        exact ⟨earlier, earlierMember, trivial, continues⟩
      · rw [List.mem_singleton.mp last]
        exact ⟨waiting, member, trivial, grant⟩
    · intro run runMember _
      by_cases same : run.key = waiting.key
      · rw [distinct.eq runMember member same]
        exact ⟨_, List.mem_append_right _ (List.mem_singleton_self _), grant⟩
      · obtain ⟨later, laterMember, continues⟩ := kept.lasts run runMember same
        exact ⟨later, List.mem_append_left _ laterMember, continues⟩
    · exact kept.distinct.append fun other otherMember =>
        kept.keeps_of_mem otherMember

/-- The session without a run whose lock has yet to pass on. -/
def withoutRun (session : Session) (run : Run) : Session :=
  { session with runs := session.runs.filter (!·.is run.id run.generation) }

theorem withoutRun_passLock_runs (session : Session)
    (distinct : Run.Distinct session.runs) (run : Run) :
    Run.Kept (· ≠ run.key) session.runs
      ((session.withoutRun run).passLock run.id).runs := by
  have filtered := Run.kept_filter distinct run
  have granted := passLock_runs (session.withoutRun run) filtered.distinct run.id
  exact (filtered.trans granted).congr fun other _ => and_iff_left trivial

theorem removeRun_runs (session : Session)
    (distinct : Run.Distinct session.runs) (run : Run) :
    Run.Kept (· ≠ run.key) session.runs (session.removeRun run).runs := by
  unfold removeRun
  dsimp only
  split
  · exact withoutRun_passLock_runs session distinct run
  · exact Run.kept_filter distinct run

/-- A run whose computation is over frees its lock and stands behind the other
runs. -/
theorem withoutRun_passLock_enterPhase_runs (session : Session)
    (distinct : Run.Distinct session.runs) (run : Run) (phase : Phase) :
    ∃ others, Run.Kept (· ≠ run.key) session.runs others ∧
      (((session.withoutRun run).passLock run.id).enterPhase run phase).runs =
        others ++ [{ run with phase }] := by
  have parted := withoutRun_passLock_runs session distinct run
  have filtered := Run.kept_filter parted.distinct run
  exact ⟨_, (parted.trans filtered).congr fun _ _ => and_self_iff, rfl⟩

theorem highlightText_eq (session : Session) (text : Text)
    (config : HighlightConfig) :
    ∃ cache, (session.highlightText text config).2 = { session with cache } := by
  unfold highlightText
  split
  · exact ⟨session.cache, rfl⟩
  · exact ⟨_, rfl⟩

/-- The phase of a run that has computed the highlights of a text. -/
def computedPhase (session : Session) (run : Run) (text : Text) : Phase :=
  .computed text (session.highlightText text run.config.highlight).1.1
    (session.highlightText text run.config.highlight).1.2

theorem complete_spec (session : Session)
    (distinct : Run.Distinct session.runs) (run : Run)
    (text : Text) :
    ∃ others cache, Run.Kept (· ≠ run.key) session.runs others ∧
      session.highlightText text run.config.highlight =
        ((session.highlightText text run.config.highlight).1,
          { session with cache }) ∧
      session.complete run text =
        { session with
          runs := others ++ [{ run with phase := session.computedPhase run text }]
          cache } := by
  obtain ⟨cache, looked⟩ := highlightText_eq session text run.config.highlight
  obtain ⟨others, kept, runs⟩ := withoutRun_passLock_enterPhase_runs
    { session with cache } distinct run (session.computedPhase run text)
  refine ⟨others, cache, kept, Prod.ext rfl looked, ?_⟩
  have result : session.complete run text =
      (((session.highlightText text run.config.highlight).2.withoutRun run).passLock
        run.id).enterPhase run (session.computedPhase run text) := rfl
  rw [result, looked, ← runs, passLock_eq]
  rfl

theorem breakOff_spec (session : Session)
    (distinct : Run.Distinct session.runs) (run : Run)
    (reason : String) :
    ∃ others, Run.Kept (· ≠ run.key) session.runs others ∧
      session.breakOff run reason =
        { session with runs := others ++ [{ run with phase := .failed reason }] } := by
  obtain ⟨others, kept, runs⟩ :=
    withoutRun_passLock_enterPhase_runs session distinct run (.failed reason)
  refine ⟨others, kept, ?_⟩
  have result : session.breakOff run reason =
      ((session.withoutRun run).passLock run.id).enterPhase run (.failed reason) := rfl
  rw [result, ← runs, passLock_eq]
  rfl

end Session

end LogTint
