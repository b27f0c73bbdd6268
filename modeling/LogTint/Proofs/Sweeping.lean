import LogTint.Proofs.Aftermath
import LogTint.Proofs.Debounce
import LogTint.Proofs.Publication
import LogTint.Proofs.Releasing

/-!
# Documents that are released together

A sweep releases the documents that were given up, and a shutdown releases all of them.
Each of these documents leaves with its timer and is told of once, and nothing that
belongs to another document changes.  So a second sweep finds nothing, and after a
shutdown the host hears nothing more.
-/

namespace LogTint

namespace Session

variable {session middle final : Session} {id : DocumentId} {targets : List DocumentId}
  {entry : Entry} {generation : Nat} {event : Event}

/-! ## Releasing documents -/

/-- The runs of a document once the one that is armed, if any, is cancelled. -/
def disarmedRuns (session : Session) (id : DocumentId) : List Run :=
  (Run.cancel id ((session.registry.find? id).bind (·.armed)) (session.runsOf id)).2

/-- Some documents are released and the host is told of each, in this order.  Nothing else
changes but what is being answered. -/
structure Releases (targets : List DocumentId) (session final : Session) : Prop where
  ids : final.registry.ids = session.registry.ids.filter fun id => decide (id ∉ targets)
  find? : ∀ id, final.registry.find? id =
    if id ∈ targets then none else session.registry.find? id
  runs : ∀ id, final.runsOf id =
    if id ∈ targets then session.disarmedRuns id else session.runsOf id
  rest : final =
    { session with
      registry := final.registry
      runs := final.runs
      metrics :=
        { session.metrics with active := session.metrics.active - .ofNat targets.length }
      control := final.control
      answer := final.answer
      log := session.log ++ targets.map fun id => (session.clock, .closed id) }

namespace Releases

theorem refl (session : Session) : Releases [] session session := by
  refine ⟨by simp, by simp, by simp, ?_⟩
  simp

theorem single (found : session.registry.find? id = some entry) :
    Releases [id] session (session.releaseAndTell id) := by
  have touched := release_touched found
  have disarmed : (Run.cancel id entry.armed (session.runsOf id)).2 =
      session.disarmedRuns id := by
    rw [disarmedRuns, found, Option.bind_some]
  constructor
  case ids => simpa [releaseAndTell, note] using touched.ids
  case find? => simpa [releaseAndTell, note] using touched.find?
  case runs =>
    intro other
    by_cases here : other = id
    · subst here
      rw [if_pos (List.mem_singleton_self _), ← disarmed]
      exact touched.here
    · rw [if_neg (by simpa using here)]
      exact touched.runs.elsewhere other here
  case rest =>
    have control : (session.releaseAndTell id).control = session.control := by
      rw [releaseAndTell, touched.rest]
      rfl
    have answer : (session.releaseAndTell id).answer = session.answer := by
      rw [releaseAndTell, touched.rest]
      rfl
    rw [control, answer]
    conv_lhs => rw [releaseAndTell, note, touched.rest]
    rfl

theorem cons {others : List DocumentId} (first : Releases [id] session middle)
    (second : Releases others middle final) (fresh : id ∉ others) :
    Releases (id :: others) session final := by
  have spared {other : DocumentId} (member : other ∈ others) : other ∉ [id] := by
    rw [List.mem_singleton]
    rintro rfl
    exact fresh member
  constructor
  case ids =>
    rw [second.ids, first.ids, List.filter_filter]
    exact List.filter_congr fun other _ => by simp [Bool.and_comm]
  case find? =>
    intro other
    rw [second.find?, first.find?]
    by_cases here : other = id <;> by_cases there : other ∈ others <;> simp [here, there]
  case runs =>
    intro other
    rw [second.runs, disarmedRuns, first.find?, first.runs]
    by_cases there : other ∈ others
    · rw [if_pos there, if_neg (spared there), if_neg (spared there),
        if_pos (List.mem_cons_of_mem _ there), disarmedRuns]
    · by_cases here : other = id <;> simp [here, there, fresh]
  case rest =>
    conv_lhs => rw [second.rest, first.rest]
    simp only [List.map_cons, List.map_nil, List.append_assoc, List.singleton_append,
      List.length_cons, List.length_nil]
    congr 2
    grind [UInt64.ofNat_add]

variable (releases : Releases targets session final)
include releases

theorem mem_runsOf {run : Run} (member : run ∈ final.runs) :
    run ∈ if run.id ∈ targets then session.disarmedRuns run.id else session.runsOf run.id := by
  rw [← releases.runs]
  exact List.mem_filter.mpr ⟨member, decide_eq_true rfl⟩

/-- The run that was armed is over, awake or not. -/
theorem over_of_armed (target : id ∈ targets) (known : id.number < session.nextId)
    (found : session.registry.find? id = some entry) (armed : entry.armed = some generation) :
    final.Over id generation := by
  refine ⟨?_, ?_, ?_⟩
  · rw [releases.rest]
    exact known
  · intro later foundLater
    rw [releases.find?, if_pos target] at foundLater
    cases foundLater
  · intro run member same
    cases same
    have left := releases.mem_runsOf member
    rw [if_pos target, disarmedRuns, found, Option.bind_some] at left
    exact (Run.origin_of_mem_cancel left).2 rfl armed

theorem owes (owes : final.Owes event) : session.Owes event := by
  refine owes.congr ?_ fun run member reason failed => ?_
  · rw [releases.rest]
    exact List.Subset.refl _
  · have left := releases.mem_runsOf member
    split at left
    · obtain ⟨⟨earlier, own, rfl | granted⟩, _⟩ := Run.origin_of_mem_cancel left
      · exact List.mem_of_mem_filter own
      · cases granted.symm.trans failed
    · exact List.mem_of_mem_filter left

end Releases

/-- Tracked documents can be released one after the other. -/
theorem releaseAll_releases {debts : Debts} (targets : List DocumentId)
    (coherent : Coherent debts session) (distinct : targets.Nodup)
    (tracked : ∀ id ∈ targets, session.registry.contains id = true) :
    Releases targets session (targets.foldl releaseAndTell session) := by
  induction targets generalizing session with
  | nil => exact .refl session
  | cons id others induction =>
      obtain ⟨fresh, distinct⟩ := List.nodup_cons.mp distinct
      have here := tracked id List.mem_cons_self
      obtain ⟨entry, found⟩ := Registry.contains_iff.mp here
      have first : Releases [id] session (session.releaseAndTell id) := .single found
      refine first.cons (induction (coherent.ofEffect (.unregister here)) distinct ?_) fresh
      intro other member
      have different : other ∉ [id] := by
        rw [List.mem_singleton]
        rintro rfl
        exact fresh member
      rw [Registry.contains, first.find?, if_neg different]
      exact tracked other (List.mem_cons_of_mem _ member)

/-! ## Documents that have left -/

/-- A document leaves for good, with the timer that it had. -/
structure Leaves (session final : Session) (id : DocumentId) : Prop where
  /-- The host has not been told before, and is never told again. -/
  once : session.closings id = 0 ∧ ∀ {moves later}, final.moves? moves = some later →
    later.registry.contains id = false ∧ later.closings id = 1
  timers : final.ReleasesTimers id
  cancelled : ∀ {entry generation}, session.registry.find? id = some entry →
    entry.armed = some generation → ∀ {moves later}, final.moves? moves = some later →
      ∀ run ∈ later.runs, run.key ≠ (id, generation)

theorem Releases.leaves {moves : List Move} (releases : Releases targets session final)
    (coherent : Coherent session.debts session) (forgets : session.Forgets)
    (clears : session.Clears final) (reached : session.moves? moves = some final)
    (target : id ∈ targets) (tracked : session.registry.contains id = true) :
    Leaves session final id := by
  obtain ⟨entry, found⟩ := Registry.contains_iff.mp tracked
  have coherentFinal := coherent_of_moves reached coherent
  have untracked : final.registry.find? id = none := by rw [releases.find?, if_pos target]
  have known : id.number < final.nextId := by
    rw [releases.rest]
    exact coherent.known found
  constructor
  case once =>
    refine ⟨closings_of_tracked coherent forgets found, fun {more later} reachedLater => ?_⟩
    have gone : later.registry.contains id = false := Registry.not_contains_iff.mpr
      ((Remains.refl known untracked).of_moves reachedLater coherentFinal).untracked
    exact ⟨gone, closings_of_left coherent forgets tracked
      (moves?_append_iff.mpr ⟨final, reached, reachedLater⟩) gone⟩
  case timers => exact releasesTimers coherentFinal known untracked (clears id tracked untracked)
  case cancelled =>
    intro same armedGeneration foundSame armed more later reachedLater
    have passed := releases.over_of_armed target (coherent.known found) foundSame armed
    exact (over_of_moves reachedLater coherentFinal passed).2.2

/-! ## Sweeps and shutdowns -/

/-- An action that needs no document to act is answered by three moves. -/
theorem moves?_of_performAtOnce? {action : Action} {result : Answer × Session}
    (idle : session.control = .idle)
    (available : (action.needsScheduler && !session.held) = false)
    (performed : (session.act action).performAtOnce? action = some result) :
    session.moves? (.act action :: List.replicate 3 .proceed) =
      some { result.2 with control := .idle, answer := result.1 } := by
  have performs : (session.act action).move? .proceed =
      some (result.2.answering result.1 [.host]) :=
    congrArg some (perform_of_performAtOnce? available performed)
  exact moves?_cons_iff.mpr ⟨session.act action, if_pos (isIdle_iff.mpr idle),
    moves?_cons_iff.mpr ⟨_, performs, rfl⟩⟩

/-- The documents that an action releases together, and its answer. -/
inductive Clearing (session : Session) : Action → List DocumentId → Answer → Prop where
  | sweep : Clearing session .sweep session.droppedIds (.count session.droppedIds.length)
  | shutdown : Clearing session .shutdown session.registry.ids .done

namespace Clearing

variable {action : Action} {answer : Answer} (clearing : Clearing session action targets answer)
include clearing

theorem performed : (session.act action).performAtOnce? action =
    some (answer, targets.foldl releaseAndTell (session.act action)) := by
  cases clearing with
  | sweep => rfl
  | shutdown => exact congrArg some (session.act .shutdown).shutdown_eq

theorem sublist : targets.Sublist session.registry.ids := by
  cases clearing with
  | sweep => exact session.droppedIds_sublist
  | shutdown => exact .refl _

/-- The host is answered, and the documents leave for good. -/
theorem releases {settings : Settings} {cache : Option Cache} {earlier : List Move}
    (reached : (initial settings cache).moves? earlier = some session)
    (idle : session.control = .idle) (held : session.held = true) :
    ∃ final, session.moves? (.act action :: List.replicate 3 .proceed) = some final ∧
      final.control = .idle ∧ final.answer = answer ∧ Releases targets session final ∧
      ∀ id ∈ targets, Leaves session final id := by
  have start := Coherent.initial settings cache
  have coherent := coherent_of_moves reached start
  have forgets := forgets_of_moves reached start (.initial settings cache)
  have watched := watched_of_moves reached start (.initial settings cache)
  let asked := session.act action
  have acted : session.moves? [.act action] = some asked :=
    moves?_singleton (if_pos (isIdle_iff.mpr idle))
  have coherentAsked : Coherent asked.debts asked := coherent_of_moves acted coherent
  have distinct : targets.Nodup := coherent.ids.sublist clearing.sublist
  have tracked : ∀ id ∈ targets, session.registry.contains id = true := fun id member =>
    contains_of_mem_ids (clearing.sublist.subset member)
  have released : Releases targets asked (targets.foldl releaseAndTell asked) :=
    releaseAll_releases targets coherentAsked distinct tracked
  have clears : asked.Clears (targets.foldl releaseAndTell asked) :=
    releaseAll_clears targets coherentAsked (watched_of_moves acted coherent watched) distinct
      tracked
  have moved := moves?_of_performAtOnce? idle (by rw [held, Bool.not_true, Bool.and_false])
    clearing.performed
  have releases : Releases targets session
      { targets.foldl releaseAndTell asked with control := .idle, answer } := by
    refine ⟨released.ids, released.find?, released.runs, ?_⟩
    conv_lhs => rw [released.rest]
    rfl
  exact ⟨_, moved, rfl, rfl, releases, fun id member =>
    releases.leaves coherent forgets clears moved member (tracked id member)⟩

end Clearing

theorem mem_droppedIds (distinct : session.registry.ids.Nodup) :
    id ∈ session.droppedIds ↔
      ∃ entry, session.registry.find? id = some entry ∧
        session.isAlive entry.source = false := by
  constructor
  · intro dropped
    obtain ⟨entry, found⟩ :=
      Registry.mem_ids_iff.mp (session.droppedIds_sublist.subset dropped)
    exact ⟨entry, found, (mem_droppedIds_iff distinct found).mp dropped⟩
  · rintro ⟨entry, found, gone⟩
    exact (mem_droppedIds_iff distinct found).mpr gone

/-- What was swept is not swept again. -/
theorem Releases.droppedIds_eq_nil (releases : Releases session.droppedIds session final)
    (distinct : session.registry.ids.Nodup) : final.droppedIds = [] := by
  have distinctFinal : final.registry.ids.Nodup := releases.ids ▸ distinct.filter _
  have sources : final.sources = session.sources := by rw [releases.rest]
  refine List.eq_nil_iff_forall_not_mem.mpr fun id dropped => ?_
  obtain ⟨entry, found, gone⟩ := (mem_droppedIds distinctFinal).mp dropped
  rw [releases.find?] at found
  split at found
  case isTrue => cases found
  case isFalse kept =>
      rw [isAlive, sources] at gone
      exact kept ((mem_droppedIds distinct).mpr ⟨entry, found, gone⟩)

/-- A sweep releases the documents that were given up and answers how many there were. -/
structure Sweeps (session swept : Session) : Prop where
  answer : swept.answer = .count session.droppedIds.length
  targets : ∀ id, id ∈ session.droppedIds ↔
    ∃ entry, session.registry.find? id = some entry ∧ session.isAlive entry.source = false
  distinct : session.droppedIds.Nodup
  releases : Releases session.droppedIds session swept
  leaves : ∀ id ∈ session.droppedIds, Leaves session swept id
  again : swept.moves? (.act .sweep :: List.replicate 3 .proceed) =
    some { swept with answer := .count 0 }

/-- A session that goes on while the host does nothing but let time pass. -/
inductive Elapses (session : Session) : Session → Prop where
  | moves {moves later} (reached : session.moves? moves = some later)
      (goOn : ∀ move ∈ moves, move.goesOn = true) : Elapses session later
  | advances (durations : List Nat) :
      Elapses session (session.steps (durations.map .advance))

/-- A shutdown releases every document, and from then on the host hears nothing but what
it was owed before. -/
structure ShutsDown (session closed : Session) : Prop where
  answer : closed.answer = .done
  untracked : closed.registry.entries = []
  releases : Releases session.registry.ids session closed
  leaves : ∀ id ∈ session.registry.ids, Leaves session closed id
  hears : ∀ {later}, closed.Elapses later → Hears session.Owes closed later
  /-- Unless something was under way, it hears nothing at all. -/
  silent : session.notices = [] → (∀ run ∈ session.runs, run.phase.isSleeping = true) →
    ∀ {later}, closed.Elapses later → Hears (fun _ => False) closed later

theorem Elapses.hears {closed later : Session} (elapses : closed.Elapses later)
    (untracked : closed.registry.entries = []) (idle : closed.control = .idle) :
    Hears closed.Owes closed later := by
  have spent : closed.control.isSpent = true := by rw [idle, Control.isSpent]
  cases elapses with
  | moves reached goOn => exact (Fades.of_moves untracked spent reached goOn).hears
  | advances durations => exact (Fades.advances untracked spent durations).hears

theorem Hears.mono {owed other : Event → Prop} (hears : Hears owed session final)
    (fewer : ∀ event, owed event → other event) : Hears other session final := by
  obtain ⟨new, log, plain⟩ := hears
  exact ⟨new, log, fun noted member => (plain noted member).imp_right (fewer _)⟩

/-! ## Hosts whose documents do not act -/

namespace AtRest

variable {documents : DocumentId → Option Tracked} (rest : AtRest documents session)
include rest

/-- The step that shuts the scheduler down leaves no document tracked. -/
theorem step_shutdown (held : session.held = true) :
    ∃ after, AtRest after (session.step (.act .shutdown)) ∧
      (session.step (.act .shutdown)).registry.entries = [] := by
  obtain ⟨after, restAfter, strands, -⟩ := rest.steps_act .shutdown
  refine ⟨after, restAfter, List.eq_nil_iff_forall_not_mem.mpr fun entry member => ?_⟩
  have forgotten : after entry.id = none := by
    have same := congrArg Strand.tracked? (strands entry.id)
    cases known : documents entry.id <;>
      simpa [Session.strand, Strand.step, Strand.perform, Strand.unregister, Strand.drop,
        Strand.tell, held, known] using same
  have found := Registry.find?_of_mem restAfter.shows.ids member
  rw [restAfter.shows.entries, forgotten] at found
  cases found

/-- After this step the host hears nothing more, whatever time passes. -/
theorem hears_nothing (held : session.held = true) (durations : List Nat) :
    Hears (fun _ => False) (session.step (.act .shutdown))
      ((session.step (.act .shutdown)).steps (durations.map .advance)) := by
  obtain ⟨after, restAfter, untracked⟩ := rest.step_shutdown held
  exact ((Elapses.advances durations).hears untracked restAfter.idle).mono fun event owes =>
    not_owes restAfter.notices
      (fun _ member => restAfter.shows.isSleeping_of_asleep restAfter.asleep member) owes

end AtRest

section Reachable

variable {settings : Settings} {cache : Option Cache} {earlier : List Move}
  (reached : (initial settings cache).moves? earlier = some session)
  (idle : session.control = .idle) (held : session.held = true)
include reached idle held

theorem exists_sweeps :
    ∃ swept, session.moves? (.act .sweep :: List.replicate 3 .proceed) = some swept ∧
      Sweeps session swept := by
  have coherent := coherent_of_moves reached (Coherent.initial settings cache)
  obtain ⟨swept, moved, idleSwept, answer, releases, leaves⟩ :=
    Clearing.sweep.releases reached idle held
  have nothing := releases.droppedIds_eq_nil coherent.ids
  have heldSwept : swept.held = true := by
    rw [releases.rest]
    exact held
  have again := moves?_of_performAtOnce? idleSwept
    (by rw [heldSwept, Bool.not_true, Bool.and_false]) (@Clearing.sweep swept).performed
  refine ⟨swept, moved, answer, fun id => mem_droppedIds coherent.ids,
    coherent.ids.sublist session.droppedIds_sublist, releases, leaves, again.trans ?_⟩
  rw [nothing, ← idleSwept]
  rfl

theorem exists_shutsDown :
    ∃ closed, session.moves? (.act .shutdown :: List.replicate 3 .proceed) = some closed ∧
      ShutsDown session closed := by
  obtain ⟨closed, moved, idleClosed, answer, releases, leaves⟩ :=
    Clearing.shutdown.releases reached idle held
  have untracked : closed.registry.entries = [] := by
    have none : closed.registry.ids = [] := by
      rw [releases.ids, List.filter_eq_nil_iff]
      exact fun id member => by simp [member]
    exact List.map_eq_nil_iff.mp none
  have hears {later : Session} (elapses : closed.Elapses later) :
      Hears session.Owes closed later :=
    (elapses.hears untracked idleClosed).mono fun _ owes => releases.owes owes
  refine ⟨closed, moved, answer, untracked, releases, leaves, hears, ?_⟩
  exact fun noNotices asleep {later} elapses =>
    (hears elapses).mono fun event owes => not_owes noNotices asleep owes

end Reachable

/-- A sweep and a shutdown release the documents that they are meant for, and no others.
Time brings nothing more to a host that has shut the scheduler down, if its documents do not
act. -/
theorem released_together {settings : Settings} {cache : Option Cache} {earlier : List Move}
    (reached : (initial settings cache).moves? earlier = some session)
    (idle : session.control = .idle) (held : session.held = true) :
    (∃ swept, session.moves? (.act .sweep :: List.replicate 3 .proceed) = some swept ∧
      Sweeps session swept) ∧
    (∃ closed, session.moves? (.act .shutdown :: List.replicate 3 .proceed) = some closed ∧
      ShutsDown session closed) ∧
    ∀ {stopwatch : Run → Nat} {begun : Session} {steps : List Step},
      start settings cache stopwatch = .ok begun →
      (∀ given, cache = some given → given.Sound) → Step.AllQuiet steps →
      (begun.steps steps).held = true → ∀ durations : List Nat,
        Hears (fun _ => False) (begun.steps (steps ++ [.act .shutdown]))
          (begun.steps (steps ++ .act .shutdown :: durations.map .advance)) := by
  refine ⟨exists_sweeps reached idle held, exists_shutsDown reached idle held, ?_⟩
  intro stopwatch begun steps started sound quiet stillHeld durations
  obtain ⟨documents, rest, -⟩ := (atRest_of_start started sound).steps steps quiet
  rw [steps_append, steps_append]
  exact rest.hears_nothing stillHeld durations

/-- A host registers one of its documents twice and another one once, edits two of the three
and gives the first document up. -/
def leavingMoves : List Move :=
  [.create (.quiet ['a'] true .tracked), .create (.quiet ['b'] true .tracked)] ++
    [.register 0, .register 0, .register 1].flatMap
      (fun action => .act action :: List.replicate 3 .proceed) ++
    [.edit ⟨1⟩, .edit ⟨3⟩].flatMap (fun action => .act action :: List.replicate 4 .proceed) ++
    .act (.release 0) :: List.replicate 3 .proceed

/-- A host edits a document that it has registered twice. -/
def leavingSteps : List Step :=
  [.create (.quiet ['a'] true .tracked), .act (.register 0), .act (.register 0),
    .act (.edit ⟨1⟩)]

theorem released_together_of_leavingMoves :
    ∃ session swept closed,
      (initial .standard none).moves? leavingMoves = some session ∧
      session.runs.map Run.key = [(⟨1⟩, 1), (⟨3⟩, 1)] ∧
      session.moves? (.act .sweep :: List.replicate 3 .proceed) = some swept ∧
      swept.answer = .count 2 ∧ swept.registry.ids = [⟨3⟩] ∧
      swept.runs.map Run.key = [(⟨3⟩, 1)] ∧ Sweeps session swept ∧
      session.moves? (.act .shutdown :: List.replicate 3 .proceed) = some closed ∧
      closed.runs = [] ∧ ShutsDown session closed ∧
      Hears (fun _ => False)
        ((initial .standard none).steps (leavingSteps ++ [.act .shutdown]))
        ((initial .standard none).steps
          (leavingSteps ++ .act .shutdown :: [100, 300].map .advance)) := by
  have reached : (initial .standard none).moves? leavingMoves = some _ := rfl
  have quiet : Step.AllQuiet leavingSteps := by
    intro source member
    simp only [leavingSteps, List.mem_cons, Step.create.injEq, reduceCtorEq, List.not_mem_nil,
      or_false] at member
    rw [member]
    rfl
  obtain ⟨⟨swept, moved, sweeps⟩, ⟨closed, shut, shutsDown⟩, nothing⟩ :=
    released_together reached rfl rfl
  cases moved
  cases shut
  exact ⟨_, _, _, reached, rfl, rfl, rfl, rfl, rfl, sweeps, rfl, rfl, shutsDown,
    @nothing (fun _ => 0) _ leavingSteps rfl nofun quiet rfl [100, 300]⟩

end Session

end LogTint
