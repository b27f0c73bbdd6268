import LogTint.Proofs.StrandSteps
import Mathlib.Data.List.Perm.Subperm

/-!
# Time moves every strand on

While the clock moves, the session stops at every deadline on the way, wakes the
runs whose timers fire and lets them go on to their end.  The strand of each
document stops at its own deadline only, which comes to the same.
-/

namespace LogTint

/-- The phase of a run once the clock has come so far. -/
def Phase.wokenBy (phase : Phase) (time : Nat) : Phase :=
  match phase.deadline? with
  | some deadline => if deadline ≤ time then .due else phase
  | none => phase

@[simp] theorem Phase.state_wokenBy (phase : Phase) (time : Nat) :
    (phase.wokenBy time).state = phase.state := by
  cases phase with
  | sleeping deadline =>
      rw [wokenBy, deadline?]
      dsimp only
      split <;> rfl
  | _ => rfl

namespace Run

def wokenBy (run : Run) (time : Nat) : Run :=
  { run with phase := run.phase.wokenBy time }

@[simp] theorem key_wokenBy (run : Run) (time : Nat) :
    (run.wokenBy time).key = run.key := rfl

end Run

namespace Tracked

def wokenBy (tracked : Tracked) (time : Nat) : Tracked :=
  { tracked with
    work? := tracked.work?.map fun work => { work with phase := work.phase.wokenBy time } }

theorem run?_wokenBy (tracked : Tracked) (id : DocumentId) (time : Nat) :
    (tracked.wokenBy time).run? id = (tracked.run? id).map (·.wokenBy time) := by
  rw [run?, run?, wokenBy, Option.map_map, Option.map_map]
  rfl

theorem entry_wokenBy (tracked : Tracked) (held : Bool) (id : DocumentId) (time : Nat) :
    (tracked.wokenBy time).entry held id = tracked.entry held id := by
  obtain ⟨source, generation, work?⟩ := tracked
  cases work? with
  | none => rfl
  | some work => simp [entry, state, armed?, wokenBy]

theorem wokenBy_of_later {tracked : Tracked} {time : Nat}
    (later : ∀ work, tracked.work? = some work → ∀ deadline,
      work.phase.deadline? = some deadline → time < deadline) :
    tracked.wokenBy time = tracked := by
  obtain ⟨source, generation, work?⟩ := tracked
  cases work? with
  | none => rfl
  | some work =>
      have same : work.phase.wokenBy time = work.phase := by
        rw [Phase.wokenBy]
        split
        · rename_i deadline sleeps
          exact if_neg (Nat.not_le_of_lt (later work rfl deadline sleeps))
        · rfl
      simp [wokenBy, same]

end Tracked

namespace Strand

variable {strand : Strand}

theorem timer?_of_deadline {tracked : Tracked} {work : Work} {deadline : Nat}
    (known : strand.tracked? = some tracked) (underWay : tracked.work? = some work)
    (sleeps : work.phase.deadline? = some deadline) :
    strand.timer? = some (deadline, tracked.during { work with phase := .due }) := by
  rw [timer?, known]
  dsimp only
  rw [underWay]
  dsimp only
  rw [sleeps, Option.map_some]

/-- A timer that is there is the one of the work under way. -/
theorem timer?_eq_some {deadline : Nat} {woken : Tracked}
    (armed : strand.timer? = some (deadline, woken)) :
    ∃ tracked work, strand.tracked? = some tracked ∧ tracked.work? = some work ∧
      work.phase = .sleeping deadline ∧
        woken = tracked.during { work with phase := .due } := by
  unfold timer? at armed
  split at armed
  · cases armed
  · rename_i tracked known
    split at armed
    · cases armed
    · rename_i work underWay
      obtain ⟨at_, sleeps, same⟩ := Option.map_eq_some_iff.mp armed
      cases same
      refine ⟨tracked, work, known, underWay, ?_, rfl⟩
      cases phase : work.phase <;> simp_all [Phase.deadline?]

/-- The strand once its timer has fired. -/
def fired (strand : Strand) (deadline : Nat) (woken : Tracked) : Strand :=
  { strand with clock := deadline, tracked? := some woken }.finish

theorem timer?_due {deadline : Nat} {woken : Tracked}
    (armed : strand.timer? = some (deadline, woken)) :
    ∃ config origin, woken.work? = some ⟨config, origin, .due⟩ := by
  obtain ⟨tracked, work, -, -, -, rfl⟩ := timer?_eq_some armed
  exact ⟨work.config, work.origin, rfl⟩

/-- A run whose timer fires goes on to its end. -/
theorem fired_eq {woken : Tracked} {config : WorkerConfig} {origin : Origin}
    (due : woken.work? = some ⟨config, origin, .due⟩) (strand : Strand) (deadline : Nat) :
    strand.fired deadline woken =
      { strand with
        clock := deadline
        tracked? := (strand.reading woken config).leaves woken
        events := strand.events ++
          ((strand.reading woken config).event strand.id ::
            if origin = Origin.call false then
              [.returned strand.id ((strand.reading woken config).answer strand.id)]
            else []).map (deadline, ·) } :=
  (finish_eq rfl due rfl).trans (conclude_eq _ _ _ _)

theorem timer?_of_leaves {ending : Ending} {tracked : Tracked}
    (left : strand.tracked? = ending.leaves tracked) : strand.timer? = none := by
  rw [timer?, left]
  cases ending <;> rfl

theorem advanceTo_of_armed {deadline time : Nat} {woken : Tracked}
    (armed : strand.timer? = some (deadline, woken)) :
    strand.advanceTo time =
      if deadline ≤ time then { strand.fired deadline woken with clock := time }
      else { strand with clock := time } := by
  rw [advanceTo, armed]
  rfl

theorem advanceTo_of_unarmed (unarmed : strand.timer? = none) (time : Nat) :
    strand.advanceTo time = { strand with clock := time } := by
  rw [advanceTo, unarmed]

/-- A stop on the way makes no difference. -/
theorem advanceTo_advanceTo (strand : Strand) {first second : Nat}
    (later : first ≤ second) :
    (strand.advanceTo first).advanceTo second = strand.advanceTo second := by
  cases armed : strand.timer? with
  | none =>
      rw [advanceTo_of_unarmed armed, advanceTo_of_unarmed armed]
      exact advanceTo_of_unarmed armed second
  | some timer =>
      obtain ⟨deadline, woken⟩ := timer
      rw [advanceTo_of_armed armed, advanceTo_of_armed armed]
      by_cases passed : deadline ≤ first
      · obtain ⟨config, origin, due⟩ := timer?_due armed
        rw [if_pos passed, if_pos (Nat.le_trans passed later), fired_eq due]
        exact advanceTo_of_unarmed (timer?_of_leaves rfl) second
      · rw [if_neg passed, advanceTo_of_armed (by exact armed)]
        rfl

/-- What is left to do after time has passed was to be done later on. -/
theorem advanceTo_work {time : Nat} {tracked : Tracked} {work : Work}
    (known : (strand.advanceTo time).tracked? = some tracked)
    (underWay : tracked.work? = some work) :
    strand.tracked? = some tracked ∧
      ∀ deadline, work.phase.deadline? = some deadline → time < deadline := by
  cases armed : strand.timer? with
  | none =>
      rw [advanceTo_of_unarmed armed] at known
      have same : strand.tracked? = some tracked := known
      refine ⟨same, fun deadline sleeps => ?_⟩
      rw [timer?_of_deadline same underWay sleeps] at armed
      cases armed
  | some timer =>
      obtain ⟨deadline, woken⟩ := timer
      rw [advanceTo_of_armed armed] at known
      by_cases passed : deadline ≤ time
      · obtain ⟨config, origin, due⟩ := timer?_due armed
        rw [if_pos passed, fired_eq due] at known
        dsimp only at known
        cases ending : strand.reading woken config <;> rw [ending] at known <;> cases known
        · cases underWay
        · cases underWay
      · rw [if_neg passed] at known
        have same : strand.tracked? = some tracked := known
        refine ⟨same, fun other sleeps => ?_⟩
        rw [timer?_of_deadline same underWay sleeps] at armed
        cases armed
        omega

/-- The run of the document that fires by a time, and when it does. -/
def firing? (strand : Strand) (time : Nat) : Option (Nat × Nat) :=
  match strand.timer? with
  | none => none
  | some (deadline, woken) =>
      if deadline ≤ time then some (deadline, woken.generation) else none

theorem firing?_of_armed {deadline time : Nat} {woken : Tracked}
    (armed : strand.timer? = some (deadline, woken)) :
    strand.firing? time =
      if deadline ≤ time then some (deadline, woken.generation) else none := by
  rw [firing?, armed]

theorem firing?_of_unarmed (unarmed : strand.timer? = none) (time : Nat) :
    strand.firing? time = none := by
  rw [firing?, unarmed]

/-- What fires by a time fires by an earlier one or after that. -/
theorem firing?_toList (strand : Strand) {first second : Nat} (later : first ≤ second) :
    (strand.firing? second).toList =
      (strand.firing? first).toList ++ ((strand.advanceTo first).firing? second).toList := by
  cases armed : strand.timer? with
  | none =>
      rw [firing?_of_unarmed armed, firing?_of_unarmed armed, advanceTo_of_unarmed armed,
        firing?_of_unarmed (by exact armed)]
      rfl
  | some timer =>
      obtain ⟨deadline, woken⟩ := timer
      rw [firing?_of_armed armed, firing?_of_armed armed, advanceTo_of_armed armed]
      by_cases passed : deadline ≤ first
      · obtain ⟨config, origin, due⟩ := timer?_due armed
        rw [if_pos passed, if_pos passed, if_pos (Nat.le_trans passed later), fired_eq due,
          firing?_of_unarmed (timer?_of_leaves rfl)]
        rfl
      · rw [if_neg passed, if_neg passed, firing?_of_armed (by exact armed)]
        rfl

@[simp] theorem clock_advanceTo (strand : Strand) (time : Nat) :
    (strand.advanceTo time).clock = time := by
  cases armed : strand.timer? with
  | none => rw [advanceTo_of_unarmed armed]
  | some timer =>
      rw [advanceTo_of_armed armed]
      split <;> rfl

/-- The strand when the clock comes to a time before which no timer fires. -/
theorem finish_wokenBy (strand : Strand) {time : Nat}
    (dormant : ∀ tracked, strand.tracked? = some tracked → tracked.Dormant)
    (first : ∀ deadline woken, strand.timer? = some (deadline, woken) → time ≤ deadline) :
    { strand with
      clock := time
      tracked? := strand.tracked?.map (Tracked.wokenBy · time) }.finish =
        strand.advanceTo time := by
  have asleep : (∀ deadline woken, strand.timer? = some (deadline, woken) →
      time < deadline) → strand.tracked?.map (Tracked.wokenBy · time) = strand.tracked? := by
    intro later
    cases known : strand.tracked? with
    | none => rfl
    | some tracked =>
        rw [Option.map_some, Tracked.wokenBy_of_later]
        exact fun work underWay deadline sleeps =>
          later _ _ (timer?_of_deadline known underWay sleeps)
  cases armed : strand.timer? with
  | none =>
      rw [advanceTo_of_unarmed armed, asleep (by simp [armed])]
      exact finish_of_dormant (by exact dormant)
  | some timer =>
      obtain ⟨deadline, woken⟩ := timer
      rw [advanceTo_of_armed armed]
      by_cases passed : deadline ≤ time
      · cases Nat.le_antisymm passed (first deadline woken armed)
        obtain ⟨tracked, work, known, underWay, sleeps, rfl⟩ := timer?_eq_some armed
        have wakes : strand.tracked?.map (Tracked.wokenBy · time) =
            some (tracked.during { work with phase := .due }) := by
          simp [known, Tracked.wokenBy, Tracked.during, underWay, Phase.wokenBy, sleeps,
            Phase.deadline?]
        rw [if_pos passed, wakes, ← fired, fired_eq rfl]
      · rw [if_neg passed, asleep (by simpa [armed] using passed)]
        exact finish_of_dormant (by exact dormant)

end Strand

namespace Session

variable {documents : DocumentId → Option Tracked} {session : Session} {id : DocumentId}

/-- A run that is woken stays among the others, behind them. -/
theorem wakeIfDue_spec {run : Run} {before after : List Run}
    (distinct : Run.Distinct (before ++ run :: after))
    (runs : session.runs.Perm (before ++ run :: after)) :
    ∃ woken, session.wakeIfDue run = { session with runs := woken } ∧
      woken.Perm (before ++ run.wokenBy session.clock :: after) := by
  have wokenBy : run.wokenBy session.clock =
      { run with phase := run.phase.wokenBy session.clock } := rfl
  rw [wakeIfDue, wokenBy, Phase.wokenBy]
  cases run.phase.deadline? with
  | none => exact ⟨session.runs, rfl, runs⟩
  | some deadline =>
      dsimp only
      by_cases due : deadline ≤ session.clock
      · rw [if_pos due, if_pos due]
        have middle := runs.trans List.perm_middle
        have fresh := distinct
        rw [Run.Distinct, (List.perm_middle.map Run.key).nodup_iff, List.map_cons,
          List.nodup_cons] at fresh
        have others : (session.runs.filter (!·.is run.id run.generation)).Perm
            (before ++ after) := by
          refine (middle.filter _).trans ?_
          rw [List.filter_cons_of_neg (by simp [Run.is]), List.filter_eq_self.mpr]
          intro other member
          rw [Bool.not_eq_true', ← Bool.not_eq_true, Run.is_iff]
          intro same
          exact fresh.1 (List.mem_map.mpr ⟨other, member, same⟩)
        refine ⟨_, rfl, ((others.append_right _).trans List.perm_append_comm).trans ?_⟩
        rw [List.singleton_append]
        exact List.perm_middle.symm
      · rw [if_neg due, if_neg due]
        exact ⟨session.runs, rfl, runs⟩

theorem wakeAll_spec (session : Session) (distinct : Run.Distinct session.runs) :
    ∃ woken, session.wakeAll = { session with runs := woken } ∧
      woken.Perm (session.runs.map (·.wokenBy session.clock)) := by
  have along : ∀ (later : List Run) (before : List Run) (current : Session),
      current.clock = session.clock → Run.Distinct (before ++ later) →
      current.runs.Perm (before ++ later) →
      ∃ woken, later.foldl wakeIfDue current = { current with runs := woken } ∧
        woken.Perm (before ++ later.map (·.wokenBy session.clock)) := by
    intro later
    induction later with
    | nil =>
        intro before current _ _ runs
        exact ⟨current.runs, rfl, runs⟩
    | cons run later induction =>
        intro before current clock distinct runs
        obtain ⟨woken, wakes, wokenRuns⟩ := wakeIfDue_spec distinct runs
        rw [clock] at wokenRuns
        have together : ∀ next : Run, before ++ next :: later = (before ++ [next]) ++ later :=
          fun _ => by simp
        rw [together] at wokenRuns
        obtain ⟨final, finishes, finalRuns⟩ := induction
          (before ++ [run.wokenBy session.clock]) { current with runs := woken } clock
          (by simpa [Run.Distinct] using distinct) wokenRuns
        rw [List.foldl_cons, wakes, finishes]
        exact ⟨final, rfl, by simpa using finalRuns⟩
  exact along session.runs [] session rfl distinct (List.Perm.refl _)

/-- The clock stands at a time, and every timer that is due has fired. -/
theorem Shows.wake {calls : Nat} (shows : session.Shows documents calls) (time : Nat) :
    ∃ runs,
      wakeAll { session with clock := time } = { session with clock := time, runs } ∧
      { session with clock := time, runs }.Shows
        (fun id => (documents id).map (Tracked.wokenBy · time)) calls := by
  obtain ⟨woken, wakes, runs⟩ := wakeAll_spec { session with clock := time } shows.distinct
  refine ⟨woken, wakes, ?_⟩
  have bound : ∀ id, ((documents id).map (·.wokenBy time)).bind (Tracked.run? id) =
      ((documents id).bind (Tracked.run? id)).map (·.wokenBy time) := by
    intro id
    cases documents id with
    | none => rfl
    | some tracked => exact tracked.run?_wokenBy id time
  constructor
  case ids => exact shows.ids
  case entries =>
    intro id
    rw [Option.map_map]
    refine (shows.entries id).trans ?_
    congr 1
    funext tracked
    exact (tracked.entry_wokenBy _ _ _).symm
  case solitary =>
    rw [(runs.map Run.id).nodup_iff, List.map_map]
    exact shows.solitary
  case runs =>
    intro run
    rw [runs.mem_iff, bound, List.mem_map, Option.map_eq_some_iff]
    constructor
    · rintro ⟨before, member, rfl⟩
      exact ⟨before, (shows.runs before).mp member, rfl⟩
    · rintro ⟨before, shown, rfl⟩
      have here : before.id = (before.wokenBy time).id := rfl
      exact ⟨before, (shows.runs before).mpr (here ▸ shown), rfl⟩
  case known =>
    intro id tracked known
    obtain ⟨before, knownBefore, rfl⟩ := Option.map_eq_some_iff.mp known
    exact ⟨(shows.known knownBefore).1, (shows.known knownBefore).2⟩
  case working =>
    intro id tracked work known underWay
    obtain ⟨before, knownBefore, rfl⟩ := Option.map_eq_some_iff.mp known
    obtain ⟨earlier, underWayBefore, rfl⟩ := Option.map_eq_some_iff.mp underWay
    obtain ⟨held, fits⟩ := shows.working knownBefore underWayBefore
    refine ⟨held, ?_⟩
    obtain ⟨config, origin, phase⟩ := earlier
    cases phase with
    | sleeping deadline =>
        simp only [Phase.wokenBy, Phase.deadline?]
        split
        · trivial
        · exact ⟨by omega, fits.2⟩
    | _ => exact fits
  case quiet => exact shows.quiet
  case sound => exact shows.sound
  case debounce => exact shows.debounce
  case dropped => exact shows.dropped
  case calls =>
    rw [(runs.map _).sum_nat, List.map_map]
    exact shows.calls

/-- The runs that fire on the way to a time, each with the time at which it does. -/
def firesWithin : Nat → Nat → Session → List (Nat × DocumentId × Nat)
  | 0, _, _ => []
  | stops + 1, time, session =>
      match session.nextDeadline? time with
      | none => []
      | some deadline =>
          let stopped := { session with clock := max session.clock deadline }
          (stopped.runs.filter fun run =>
              run.phase.deadline?.any (· ≤ stopped.clock)).map
            (fun run => (stopped.clock, run.key)) ++
              firesWithin stops time stopped.wakeAll.settle

/-- The strand of a document has the timer of its run. -/
theorem Shows.timer?_eq {deadline calls : Nat} {woken : Tracked}
    (shows : session.Shows documents calls)
    (armed : (session.strand documents id).timer? = some (deadline, woken)) :
    ∃ run ∈ session.runs, run.key = (id, woken.generation) ∧
      run.phase.deadline? = some deadline ∧ session.clock < deadline := by
  obtain ⟨tracked, work, known, underWay, sleeps, rfl⟩ := Strand.timer?_eq_some armed
  have fits := (shows.working known underWay).2
  rw [Work.Fits, sleeps] at fits
  exact ⟨tracked.runOf id work, shows.mem_runs known underWay, rfl,
    by rw [Tracked.runOf, sleeps]; rfl, fits.1⟩

theorem Shows.timer?_of_run {deadline calls : Nat} {run : Run}
    (shows : session.Shows documents calls) (member : run ∈ session.runs)
    (sleeps : run.phase.deadline? = some deadline) :
    ∃ woken : Tracked, (session.strand documents run.id).timer? = some (deadline, woken) ∧
      woken.generation = run.generation := by
  obtain ⟨tracked, work, known, underWay, same⟩ := shows.exists_work member
  have sleepsThere : work.phase.deadline? = some deadline := by
    rw [← same] at sleeps
    exact sleeps
  refine ⟨_, Strand.timer?_of_deadline known underWay sleepsThere, ?_⟩
  rw [← same]
  rfl

theorem nextDeadline?_eq_none {time : Nat} (none : session.nextDeadline? time = none)
    {run : Run} (member : run ∈ session.runs) {deadline : Nat}
    (sleeps : run.phase.deadline? = some deadline) : time < deadline := by
  rw [nextDeadline?, Option.filter_eq_none_iff] at none
  have listed : deadline ∈ session.runs.filterMap (·.phase.deadline?) :=
    List.mem_filterMap.mpr ⟨run, member, sleeps⟩
  cases least : (session.runs.filterMap (·.phase.deadline?)).min? with
  | none =>
      rw [List.min?_eq_none_iff] at least
      rw [least] at listed
      cases listed
  | some other =>
      have beyond := none other least
      have below := (List.min?_eq_some_iff.mp least).2 deadline listed
      simp only [decide_eq_true_eq] at beyond
      omega

theorem nextDeadline?_eq_some {time deadline : Nat}
    (next : session.nextDeadline? time = some deadline) :
    deadline ≤ time ∧ (∃ run ∈ session.runs, run.phase.deadline? = some deadline) ∧
      ∀ run ∈ session.runs, ∀ other, run.phase.deadline? = some other →
        deadline ≤ other := by
  rw [nextDeadline?, Option.filter_eq_some_iff] at next
  obtain ⟨least, onTime⟩ := next
  obtain ⟨listed, below⟩ := List.min?_eq_some_iff.mp least
  exact ⟨of_decide_eq_true onTime, List.mem_filterMap.mp listed,
    fun run member other sleeps =>
      below other (List.mem_filterMap.mpr ⟨run, member, sleeps⟩)⟩

namespace AtRest

/-- The session stops at the first deadline on the way. -/
theorem stop {time deadline : Nat} (rest : AtRest documents session)
    (next : session.nextDeadline? time = some deadline) :
    ∃ after,
      AtRest after ({ session with clock := max session.clock deadline }.wakeAll).settle ∧
      (∀ id, ({ session with clock := max session.clock deadline }.wakeAll).settle.strand
          after id = (session.strand documents id).advanceTo deadline) ∧
      ({ session with clock := max session.clock deadline }.wakeAll).settle.runs.length <
        session.runs.length := by
  obtain ⟨-, ⟨first, firstMember, firstSleeps⟩, least⟩ := nextDeadline?_eq_some next
  obtain ⟨woken, armed, -⟩ := rest.shows.timer?_of_run firstMember firstSleeps
  obtain ⟨_, _, _, _, ahead⟩ := rest.shows.timer?_eq armed
  have clock : max session.clock deadline = deadline := Nat.max_eq_right (Nat.le_of_lt ahead)
  obtain ⟨runs, wakes, shows⟩ := rest.shows.wake deadline
  have orderly := shows.orderly rest.idle rest.notices
  obtain ⟨after, restAfter, strands, -⟩ := orderly.settleWithin (Nat.le_refl _)
  have advances : ∀ id, strand (settle { session with clock := deadline, runs }) after id =
      (session.strand documents id).advanceTo deadline := by
    intro id
    refine (strands id).trans ((outlook_of_idle (by exact rest.idle)
      (by exact rest.notices) _ id).trans ?_)
    refine (session.strand documents id).finish_wokenBy (rest.asleep id)
      fun other woken armed => ?_
    obtain ⟨run, member, _, sleeps, _⟩ := rest.shows.timer?_eq armed
    exact least run member other sleeps
  rw [clock, wakes]
  refine ⟨after, restAfter, advances, ?_⟩
  have nodup : (settle { session with clock := deadline, runs }).runs.Nodup :=
    List.Nodup.of_map _ restAfter.shows.solitary
  have subset : (settle { session with clock := deadline, runs }).runs ⊆
      session.runs.erase first := by
    intro run member
    obtain ⟨tracked, work, known, underWay, same⟩ := restAfter.shows.exists_work member
    have there := advances run.id
    obtain ⟨knownBefore, later⟩ := Strand.advanceTo_work
      (by rw [← there]; exact known) underWay
    have memberBefore := rest.shows.mem_runs knownBefore underWay
    rw [same] at memberBefore
    refine (List.mem_erase_of_ne ?_).mpr memberBefore
    rintro rfl
    have sleeps : work.phase.deadline? = some deadline := by
      rw [← same] at firstSleeps
      exact firstSleeps
    exact absurd (later deadline sleeps) (Nat.lt_irrefl _)
  have fewer := (List.subperm_of_subset nodup subset).length_le
  rw [List.length_erase_of_mem firstMember] at fewer
  have some_ := List.length_pos_of_mem firstMember
  omega

/-- No timer fires on the way. -/
theorem skip {time : Nat} (rest : AtRest documents session)
    (none : session.nextDeadline? time = none) :
    AtRest documents { session with clock := time } ∧
      ∀ id, strand { session with clock := time } documents id =
          (session.strand documents id).advanceTo time ∧
        (session.strand documents id).firing? time = Option.none := by
  have beyond : ∀ id deadline woken,
      (session.strand documents id).timer? = some (deadline, woken) → ¬deadline ≤ time := by
    intro id deadline woken armed
    obtain ⟨run, member, _, sleeps, _⟩ := rest.shows.timer?_eq armed
    exact Nat.not_le_of_lt (nextDeadline?_eq_none none member sleeps)
  refine ⟨⟨{ rest.shows with working := ?_ }, rest.asleep, rest.idle, rest.notices⟩,
    fun id => ?_⟩
  · intro id tracked work known underWay
    obtain ⟨held, fits⟩ := rest.shows.working known underWay
    refine ⟨held, ?_⟩
    obtain ⟨config, origin, phase⟩ := work
    cases phase with
    | sleeping deadline =>
        have later := beyond id deadline _
          (Strand.timer?_of_deadline known underWay rfl)
        exact ⟨Nat.lt_of_not_le later, fits.2⟩
    | _ => exact fits
  · cases armed : (session.strand documents id).timer? with
    | none =>
        rw [Strand.advanceTo_of_unarmed armed, Strand.firing?_of_unarmed armed]
        exact ⟨rfl, rfl⟩
    | some timer =>
        have later := beyond id timer.1 timer.2 armed
        rw [Strand.advanceTo_of_armed armed, Strand.firing?_of_armed armed, if_neg later,
          if_neg later]
        exact ⟨rfl, rfl⟩

/-- The run of a document is due at a stop if it fires by then. -/
theorem fires_at_stop {time deadline : Nat} (rest : AtRest documents session)
    (next : session.nextDeadline? time = some deadline) (id : DocumentId) :
    ((session.runs.filter fun run =>
        run.phase.deadline?.any (· ≤ deadline)).map
          (fun run => (deadline, run.key))).filter (·.2.1 = id) =
      ((session.strand documents id).firing? deadline).toList.map
        fun firing => (firing.1, id, firing.2) := by
  obtain ⟨-, -, least⟩ := nextDeadline?_eq_some next
  have own : (session.runs.filter fun run =>
      run.phase.deadline?.any (· ≤ deadline)).filter (·.id = id) =
        ((documents id).bind (Tracked.run? id)).toList.filter fun run =>
          run.phase.deadline?.any (· ≤ deadline) := by
    rw [List.filter_comm, rest.shows.runs_of]
  have unarmed : (session.strand documents id).timer? = none →
      (session.strand documents id).firing? deadline = none :=
    fun unarmed => Strand.firing?_of_unarmed unarmed deadline
  rw [List.filter_map]
  refine (congrArg (List.map _) own).trans ?_
  cases known : documents id with
  | none =>
      rw [unarmed (by simp [Strand.timer?, strand, known])]
      rfl
  | some tracked =>
      cases underWay : tracked.work? with
      | none =>
          rw [unarmed (by simp [Strand.timer?, strand, known, underWay])]
          simp [Tracked.run?, underWay]
      | some work =>
          have member := rest.shows.mem_runs known underWay
          have isRun : (some tracked).bind (Tracked.run? id) =
              some (tracked.runOf id work) := by
            simp [Tracked.run?, underWay]
          rw [isRun]
          cases sleeps : work.phase.deadline? with
          | none =>
              rw [unarmed (by simp [Strand.timer?, strand, known, underWay, sleeps])]
              simp [Tracked.runOf, sleeps]
          | some other =>
              have atLeast := least _ member other sleeps
              rw [Strand.firing?_of_armed (Strand.timer?_of_deadline known underWay sleeps)]
              by_cases passed : other ≤ deadline
              · cases Nat.le_antisymm passed atLeast
                simp [Tracked.runOf, sleeps, Run.key, Tracked.during]
              · simp [Tracked.runOf, sleeps, passed]

theorem advanceWithin {time : Nat} (rest : AtRest documents session) (stops : Nat)
    (later : session.clock ≤ time) (enough : session.runs.length < stops) :
    ∃ after, AtRest after (session.advanceWithin stops time) ∧
      (∀ id, (session.advanceWithin stops time).strand after id =
        (session.strand documents id).advanceTo time) ∧
      ∀ id, (session.firesWithin stops time).filter (·.2.1 = id) =
        ((session.strand documents id).firing? time).toList.map
          fun firing => (firing.1, id, firing.2) := by
  induction stops generalizing session documents with
  | zero => exact absurd enough (Nat.not_lt_zero _)
  | succ stops induction =>
      rw [Session.advanceWithin, firesWithin]
      cases next : session.nextDeadline? time with
      | none =>
          obtain ⟨restAfter, skips⟩ := rest.skip next
          dsimp only
          rw [Nat.max_eq_right later]
          refine ⟨documents, restAfter, fun id => (skips id).1, fun id => ?_⟩
          rw [(skips id).2]
          rfl
      | some deadline =>
          obtain ⟨between, restBetween, strands, fewer⟩ := rest.stop next
          obtain ⟨onTime, ⟨run, member, sleeps⟩, -⟩ := nextDeadline?_eq_some next
          have clock := congrArg Strand.clock (strands run.id)
          rw [Strand.clock_advanceTo] at clock
          obtain ⟨after, restAfter, strandsAfter, firesAfter⟩ := induction restBetween
            (Nat.le_trans (Nat.le_of_eq clock) onTime) (by omega)
          obtain ⟨woken, armed, -⟩ := rest.shows.timer?_of_run member sleeps
          obtain ⟨_, _, _, _, ahead⟩ := rest.shows.timer?_eq armed
          have now : max session.clock deadline = deadline :=
            Nat.max_eq_right (Nat.le_of_lt ahead)
          refine ⟨after, restAfter, fun id => ?_, fun id => ?_⟩
          · rw [strandsAfter, strands, Strand.advanceTo_advanceTo _ onTime]
          · dsimp only
            rw [List.filter_append, firesAfter, strands,
              (session.strand documents id).firing?_toList onTime, List.map_append,
              ← rest.fires_at_stop next, now]

end AtRest

/-- Bound on the deadlines on the way of a clock. -/
def stops (session : Session) : Nat :=
  session.runs.length +
    session.pendingActions * (session.registry.size + session.pendingActions) + 1

/-- The runs that fire in a step, each with the time at which it does. -/
def firings (session : Session) : Step → List (Nat × DocumentId × Nat)
  | .advance duration =>
      session.firesWithin session.stops (session.clock + duration)
  | _ => []

namespace AtRest

theorem advance (rest : AtRest documents session) (duration : Nat) :
    StepsAsStrands documents session (.advance duration) := by
  obtain ⟨after, restAfter, strands, -⟩ := rest.advanceWithin session.stops
    (Nat.le_add_right session.clock duration) (by rw [stops]; omega)
  exact ⟨after,
    ⟨restAfter.shows.aside _ _ _ _ _, restAfter.asleep, restAfter.idle, restAfter.notices⟩,
    strands, nofun⟩

/-- What a step does to a session at rest it does to every strand. -/
theorem step (rest : AtRest documents session) (step : Step)
    (quiet : ∀ source, step = .create source → source.isQuiet = true) :
    StepsAsStrands documents session step := by
  cases step with
  | create source => exact rest.steps_create (quiet source rfl)
  | act action => exact rest.steps_act action
  | highlightNow id => exact rest.steps_highlightNow id
  | advance duration => exact rest.advance duration

/-- A run that fires does so in the strand of its document. -/
theorem firings_eq (rest : AtRest documents session) (duration : Nat) (id : DocumentId) :
    (session.firings (.advance duration)).filter (·.2.1 = id) =
      ((session.strand documents id).firing? (session.clock + duration)).toList.map
        fun firing => (firing.1, id, firing.2) := by
  obtain ⟨_, _, _, fires⟩ := rest.advanceWithin session.stops
    (Nat.le_add_right session.clock duration) (by rw [stops]; omega)
  exact fires id

theorem steps (rest : AtRest documents session) (steps : List Step)
    (quiet : ∀ source, .create source ∈ steps → source.isQuiet = true) :
    ∃ after, AtRest after (session.steps steps) ∧
      ∀ id, (session.steps steps).strand after id =
        (session.strand documents id).steps steps := by
  induction steps generalizing session documents with
  | nil => exact ⟨documents, rest, fun _ => rfl⟩
  | cons step later induction =>
      obtain ⟨between, restBetween, strands, -⟩ := rest.step step
        fun source created => quiet source (created ▸ List.mem_cons_self)
      obtain ⟨after, restAfter, strandsAfter⟩ := induction restBetween
        fun source member => quiet source (List.mem_cons_of_mem _ member)
      refine ⟨after, restAfter, fun id => (strandsAfter id).trans ?_⟩
      rw [strands]
      rfl

end AtRest

/-- A session that has just begun is at rest. -/
theorem atRest_of_start {settings : Settings} {cache : Option Cache} {begun : Session}
    {stopwatch : Run → Nat} (started : start settings cache stopwatch = .ok begun)
    (sound : ∀ kept, cache = some kept → kept.Sound) :
    AtRest (fun _ => none) begun := by
  cases valid : settings.validate with
  | error fault =>
      rw [start, valid] at started
      cases started
  | ok _ =>
      rw [start, valid] at started
      cases started
      exact {
        shows := {
          ids := List.nodup_nil
          entries := fun _ => rfl
          solitary := List.nodup_nil
          runs := fun _ => by simp [initial]
          known := nofun
          working := nofun
          quiet := nofun
          sound := sound
          debounce := Settings.debounce_pos valid
          dropped := rfl
          calls := rfl }
        asleep := nofun
        idle := rfl
        notices := rfl }

end Session

end LogTint
