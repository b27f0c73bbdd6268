import LogTint.Schedule.Editing

/-!
# The runs of one document

What the scheduler does with the runs of one document depends on these runs alone
and leaves those of the other documents as they are.  So it does not matter how the
runs of different documents are interleaved.
-/

namespace LogTint

namespace Run

variable {runs : List Run} {run : Run}

/-- Runs after one of them entered a phase. -/
def enter (run : Run) (phase : Phase) (runs : List Run) : List Run :=
  runs.filter (!·.is run.id run.generation) ++ [{ run with phase }]

/-- Runs of one document after the first that waits for its lock was given it. -/
def grant (runs : List Run) : List Run :=
  match runs.find? fun run => decide (run.phase = .waiting) with
  | some run => run.enter .granted runs
  | none => runs

/-- Runs of one document after one of them ended. -/
def leave (run : Run) (runs : List Run) : List Run :=
  let remaining := runs.filter (!·.is run.id run.generation)
  if run.phase.holdsLock then grant remaining else remaining

/-- Runs of one document after the one that is armed, if any, was cancelled, and
whether there was one. -/
def cancel (id : DocumentId) (armed : Option Nat) (runs : List Run) : Bool × List Run :=
  match armed.bind fun generation => runs.find? (·.is id generation) with
  | some run => (true, run.leave runs)
  | none => (false, runs)

end Run

namespace Session

variable {session middle final : Session} {id other : DocumentId}
  {change later : List Run → List Run}

/-- The runs of a document, in their order. -/
def runsOf (session : Session) (id : DocumentId) : List Run :=
  session.runs.filter (·.id = id)

theorem findRun?_eq (session : Session) (id : DocumentId) (generation : Nat) :
    session.findRun? id generation = (session.runsOf id).find? (·.is id generation) := by
  rw [findRun?, runsOf, List.find?_filter]
  congr 1
  funext run
  by_cases here : run.id = id <;> simp [Run.is, here]

theorem isLocked_eq (session : Session) (id : DocumentId) :
    session.isLocked id = (session.runsOf id).any (·.phase.holdsLock) := by
  rw [isLocked, runsOf, List.any_filter]

/-- The runs of one document are changed, and no others. -/
structure ActsOn (id : DocumentId) (change : List Run → List Run)
    (session final : Session) : Prop where
  here : final.runsOf id = change (session.runsOf id)
  elsewhere : ∀ other, other ≠ id → final.runsOf other = session.runsOf other

namespace ActsOn

theorem trans (sooner : ActsOn id change session middle)
    (after : ActsOn id later middle final) :
    ActsOn id (later ∘ change) session final where
  here := by rw [after.here, sooner.here, Function.comp_apply]
  elsewhere other different :=
    (after.elsewhere other different).trans (sooner.elsewhere other different)

/-- What is done to the runs of a document alike has the same result. -/
theorem agree {twin finalTwin : Session} (acts : ActsOn id change session final)
    (actsTwin : ActsOn id change twin finalTwin)
    (same : ∀ other, twin.runsOf other = session.runsOf other) (other : DocumentId) :
    finalTwin.runsOf other = final.runsOf other := by
  by_cases here : other = id
  · rw [here, acts.here, actsTwin.here, same]
  · rw [acts.elsewhere other here, actsTwin.elsewhere other here, same]

end ActsOn

/-- A run leaves the others of its document as they are. -/
theorem withoutRun_actsOn (session : Session) (run : Run) :
    ActsOn run.id (List.filter (!·.is run.id run.generation)) session
      { session with runs := session.runs.filter (!·.is run.id run.generation) } where
  here := by
    rw [runsOf, runsOf, List.filter_filter, List.filter_filter]
    apply List.filter_congr
    intro member _
    exact Bool.and_comm _ _
  elsewhere other different := by
    rw [runsOf, runsOf, List.filter_filter]
    apply List.filter_congr
    intro member _
    by_cases here : member.id = other
    · simp [here, Run.is, different]
    · simp [here]

theorem addRun_actsOn (session : Session) (run : Run) :
    ActsOn run.id (· ++ [run]) session { session with runs := session.runs ++ [run] } where
  here := by simp [runsOf]
  elsewhere other different := by simp [runsOf, Ne.symm different]

theorem enterPhase_actsOn (session : Session) (run : Run) (phase : Phase) :
    ActsOn run.id (run.enter phase) session (session.enterPhase run phase) :=
  (session.withoutRun_actsOn run).trans (addRun_actsOn _ { run with phase })

theorem passLock_actsOn (session : Session) (id : DocumentId) :
    ActsOn id Run.grant session (session.passLock id) := by
  have first : (session.runs.find? fun run =>
      decide (run.id = id) && decide (run.phase = .waiting)) =
        (session.runsOf id).find? fun run => decide (run.phase = .waiting) := by
    simp [runsOf, List.find?_filter]
  rw [passLock, first]
  cases found : (session.runsOf id).find? fun run => decide (run.phase = .waiting) with
  | none =>
      refine ⟨?_, fun _ _ => rfl⟩
      rw [Run.grant, found]
  | some run =>
      have here : run.id = id := by
        simpa [runsOf] using (List.mem_filter.mp (List.mem_of_find?_eq_some found)).2
      have acts := session.enterPhase_actsOn run .granted
      rw [here] at acts
      refine ⟨?_, acts.elsewhere⟩
      rw [Run.grant, found]
      exact acts.here

theorem removeRun_actsOn (session : Session) (run : Run) :
    ActsOn run.id run.leave session (session.removeRun run) := by
  have remaining := session.withoutRun_actsOn run
  unfold removeRun Run.leave
  dsimp only
  split
  · exact remaining.trans (passLock_actsOn _ run.id)
  · exact remaining

theorem cancelArmed_actsOn (session : Session) (id : DocumentId) :
    (session.cancelArmed id).1 =
      (Run.cancel id ((session.registry.find? id).bind (·.armed)) (session.runsOf id)).1 ∧
    ActsOn id
      (fun runs => (Run.cancel id ((session.registry.find? id).bind (·.armed)) runs).2)
      session (session.cancelArmed id).2 := by
  unfold cancelArmed Run.cancel
  cases armed : (session.registry.find? id).bind (·.armed) with
  | none => exact ⟨rfl, rfl, fun _ _ => rfl⟩
  | some generation =>
      dsimp only [Option.bind_some]
      rw [findRun?_eq]
      cases found : (session.runsOf id).find? (·.is id generation) with
      | none =>
          refine ⟨rfl, ?_, fun _ _ => rfl⟩
          dsimp only
          rw [found]
          rfl
      | some run =>
          have here : run.id = id := by
            simpa [runsOf] using (List.mem_filter.mp (List.mem_of_find?_eq_some found)).2
          have acts := removeRun_actsOn
            (session.modifyEntry id fun entry => { entry with armed := none }) run
          rw [here] at acts
          refine ⟨rfl, ?_, acts.elsewhere⟩
          dsimp only
          rw [found]
          exact acts.here

end Session

end LogTint
