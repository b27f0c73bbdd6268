import LogTint.Proofs.Independence
import LogTint.Proofs.StrandTimers
import LogTint.Proofs.Texts

/-!
# Edits are debounced exactly

The run of an edit fires once the debounce has passed since the edit, and fires
then only, unless something overtakes it.  The host is told once of it.  Of what
it has not called for it is told nothing but this.
-/

namespace LogTint

/-- No document that the steps create acts when it is read. -/
def Step.AllQuiet (steps : List Step) : Prop :=
  ∀ source, .create source ∈ steps → source.isQuiet = true

namespace Step.AllQuiet

variable {step : Step} {steps later : List Step}

theorem head (quiet : AllQuiet (step :: later)) :
    ∀ source, step = .create source → source.isQuiet = true :=
  fun source created => quiet source (created ▸ List.mem_cons_self)

theorem tail (quiet : AllQuiet (step :: later)) : AllQuiet later :=
  fun source created => quiet source (List.mem_cons_of_mem _ created)

theorem left (quiet : AllQuiet (steps ++ later)) : AllQuiet steps :=
  fun source created => quiet source (List.mem_append_left _ created)

theorem right (quiet : AllQuiet (steps ++ later)) : AllQuiet later :=
  fun source created => quiet source (List.mem_append_right _ created)

end Step.AllQuiet

namespace Session

/-- Whether a step overtakes a run of the document that waits for its timer. -/
def overtakes (session : Session) (id : DocumentId) (step : Step) : Bool :=
  step.overtakes id (decide (id ∈ session.droppedIds))

/-- Whether nothing overtakes the run of a document before the clock reaches a time. -/
def leftAlone (id : DocumentId) (time : Nat) : Session → List Step → Bool
  | _, [] => true
  | session, step :: later =>
      decide (time ≤ session.clock) ||
        !session.overtakes id step && leftAlone id time (session.step step) later

/-- Whether some steps go on with a burst of edits of the document: every edit is
answered with a timer, nothing else overtakes, and the latest edit is never longer
ago than the debounce. -/
def typesOn (id : DocumentId) : Nat → Session → List Step → Bool
  | _, _, [] => true
  | latest, session, step :: later =>
      let after := session.step step
      if step = .act (.edit id) then
        decide (after.answer = .outcome .scheduled) && typesOn id session.clock after later
      else
        !session.overtakes id step &&
          decide (after.clock < latest + session.settings.debounce) &&
            typesOn id latest after later

/-- The runs that fire in some steps, each with the time at which it does. -/
def firingsAlong : Session → List Step → List (Nat × DocumentId × Nat)
  | _, [] => []
  | session, step :: later =>
      session.firings step ++ firingsAlong (session.step step) later

/-- What the host is told when the timer of an edit fires that left such an entry. -/
def verdict (session : Session) (entry : Entry) : Event :=
  match session.sources[entry.source]?.filter Source.isAlive with
  | none => .closed entry.id
  | some document =>
      if session.settings.maxChars < document.text.length then
        .bypass entry.id document.text.length
      else
        .highlights entry.id
          ⟨entry.generation, document.text,
            Highlights.compute document.text session.settings.highlightConfig⟩

/-- The session after an edit of the document. -/
def edited (session : Session) (id : DocumentId) : Session :=
  session.step (.act (.edit id))

/-- When the timer of an edit that is made now is to fire. -/
def due (session : Session) : Nat := session.clock + session.settings.debounce

/-- An edit of the document made now is answered with a timer and leaves an entry. -/
structure Schedules (session : Session) (id : DocumentId) (entry : Entry) : Prop where
  answered : (session.edited id).answer = .outcome .scheduled
  found : (session.edited id).registry.find? id = some entry

/-- The clock passes a time in one stride, after steps which have not overtaken the run of
the document. -/
structure Passes (session : Session) (id : DocumentId) (time : Nat) (steps : List Step)
    (duration : Nat) : Prop where
  quiet : Step.AllQuiet steps
  alone : session.leftAlone id time steps = true
  early : (session.steps steps).clock < time
  late : time ≤ (session.steps steps).clock + duration

/-- What comes of an edit of the document that is made now. -/
structure Debounces (session : Session) (id : DocumentId) : Prop where
  /-- Its run fires when it is due, unless it is overtaken before, and fires once. -/
  fires : ∀ {entry later}, session.Schedules id entry → Step.AllQuiet later →
    ((session.edited id).firingsAlong later).filter (·.2 = (id, entry.generation)) =
      if session.due ≤ ((session.edited id).steps later).clock ∧
          (session.edited id).leftAlone id session.due later = true then
        [(session.due, id, entry.generation)]
      else []
  /-- The host is then told of it, and of nothing else about the document. -/
  delivers : ∀ {entry wait duration}, session.Schedules id entry →
    (session.edited id).Passes id session.due wait duration →
    ((session.edited id).steps (wait ++ [.advance duration])).eventsOf id =
      session.eventsOf id ++
        [(session.due, ((session.edited id).steps wait).verdict entry)]
  /-- Of a burst of edits, the host is told of the last one only. -/
  bursts : ∀ {first last entry burst wait duration}, session.Schedules id first →
    Step.AllQuiet burst → (session.edited id).typesOn id session.clock burst = true →
    (session.edited id).steps burst = last → last.Schedules id entry →
    (last.edited id).Passes id last.due wait duration →
    ((last.edited id).steps (wait ++ [.advance duration])).eventsOf id =
      session.eventsOf id ++
        [(last.due, ((last.edited id).steps wait).verdict entry)]

/-- The step edits the document, which gets a generation, and arms a timer. -/
structure Arms (session : Session) (id : DocumentId) (generation deadline : Nat)
    (step : Step) : Prop where
  edits : step.Edits id
  scheduled : step = .act (.edit id) → (session.step step).answer = .outcome .scheduled
  produces : ∃ before after, session.registry.find? id = some before ∧
    (session.step step).registry.find? id = some after ∧
    after.generation = before.generation + 1 ∧ after.generation = generation
  deadline : deadline = session.clock + (session.step step).settings.debounce

/-- What the host is told of the document in a step. -/
def newsOf (session : Session) (id : DocumentId) (step : Step) : List (Nat × Event) :=
  ((session.step step).eventsOf id).drop (session.eventsOf id).length

/-- Whenever the host is told highlights of the document that it has not called for, an
edit has armed a timer for this time, and they bear its generation. -/
def TellsOfEdits (begun : Session) (id : DocumentId) (steps : List Step) : Prop :=
  ∀ earlier step later, steps = earlier ++ step :: later → ¬step.Calls id →
    ∀ time publication,
      (time, .highlights id publication) ∈ (begun.steps earlier).newsOf id step →
        ∃ before edit after, earlier = before ++ edit :: after ∧
          (begun.steps before).Arms id publication.generation time edit

variable {documents : DocumentId → Option Tracked} {session : Session} {id : DocumentId}
  {step : Step} {source : SourceId} {generation : Nat} {config : WorkerConfig}
  {deadline : Nat}

theorem steps_append (session : Session) (first second : List Step) :
    session.steps (first ++ second) = (session.steps first).steps second :=
  List.foldl_append

theorem steps_concat (session : Session) (steps : List Step) (step : Step) :
    session.steps (steps ++ [step]) = (session.steps steps).step step :=
  List.foldl_concat ..

theorem strand_isGivenUp (rest : AtRest documents session) (id : DocumentId) :
    (session.strand documents id).isGivenUp = decide (id ∈ session.droppedIds) := by
  rw [Strand.isGivenUp]
  cases known : documents id with
  | none =>
      have absent : id ∉ session.droppedIds := by
        intro dropped
        obtain ⟨entry, member, same⟩ := List.mem_map.mp dropped
        have listed : id ∈ session.registry.ids :=
          List.mem_map.mpr ⟨entry, (List.mem_filter.mp member).1, same⟩
        rw [rest.shows.mem_ids_iff, known] at listed
        cases listed
      rw [decide_eq_false absent]
      simp [strand, known]
  | some tracked =>
      have dropped : id ∈ session.droppedIds ↔ session.isAlive tracked.source = false :=
        mem_droppedIds_iff rest.shows.ids (rest.shows.find?_entry known)
      have living := session.strand_living? documents id tracked.source
      simp only [dropped, isAlive_eq]
      rw [show (session.strand documents id).tracked? = some tracked from known,
        Option.any_some, living, Option.isNone_map, ← Option.not_isSome]
      cases (session.sources[tracked.source]?.filter Source.isAlive).isSome <;> rfl

/-- A run that waits for its timer ends as the host is going to be told. -/
theorem verdict_eq (session : Session) (tracked : Tracked) (held : Bool) :
    ((session.strand documents id).reading tracked session.settings.workerConfig).event id =
      session.verdict (tracked.entry held id) := by
  rw [Strand.reading, strand_living?, verdict]
  have source : (tracked.entry held id).source = tracked.source := rfl
  rw [source]
  cases session.sources[tracked.source]?.filter Source.isAlive with
  | none => rfl
  | some document =>
      simp only [Option.map_some, Source.unscripted_text, Text.exceeds_iff]
      have ceiling : session.settings.workerConfig.maxChars = session.settings.maxChars := rfl
      rw [ceiling]
      split <;> rfl

namespace AtRest

theorem overtakes_eq (rest : AtRest documents session) (id : DocumentId) (step : Step) :
    session.overtakes id step =
      step.overtakes id (session.strand documents id).isGivenUp := by
  rw [overtakes, strand_isGivenUp rest]

theorem clock_step (rest : AtRest documents session)
    (quiet : ∀ source, step = .create source → source.isQuiet = true) :
    (session.step step).clock = session.clock + step.duration := by
  obtain ⟨after, -, strands, -⟩ := rest.step step quiet
  have turned := (session.strand documents ⟨0⟩).turned step
  rw [← strands] at turned
  exact turned.clock

theorem clock_le_steps {steps : List Step} (rest : AtRest documents session)
    (quiet : Step.AllQuiet steps) : session.clock ≤ (session.steps steps).clock := by
  induction steps generalizing session documents with
  | nil => exact Nat.le_refl _
  | cons step later induction =>
      obtain ⟨after, restAfter, -, -⟩ := rest.step step quiet.head
      have onwards := induction restAfter quiet.tail
      rw [rest.clock_step quiet.head] at onwards
      exact Nat.le_trans (Nat.le_add_right _ _) onwards

/-- The runs of one generation that fire in a step. -/
theorem filter_firings (rest : AtRest documents session) (duration : Nat)
    (id : DocumentId) (generation : Nat) :
    (session.firings (.advance duration)).filter (·.2 = (id, generation)) =
      (((session.strand documents id).firing? (session.clock + duration)).toList.filter
        (·.2 = generation)).map fun firing => (firing.1, id, firing.2) := by
  have refines : (session.firings (.advance duration)).filter (·.2 = (id, generation)) =
      ((session.firings (.advance duration)).filter (·.2.1 = id)).filter
        (·.2.2 = generation) := by
    rw [List.filter_filter]
    refine List.filter_congr fun firing _ => ?_
    simp [Prod.ext_iff, and_comm]
  rw [refines, rest.firings_eq, List.filter_map]
  rfl

/-- What waits for its timer in a strand waits on in a step that leaves it alone. -/
theorem waits_step (rest : AtRest documents session)
    (awaits : (session.strand documents id).Awaits source generation config deadline)
    (quiet : ∀ source, step = .create source → source.isQuiet = true)
    (spared : session.overtakes id step = false)
    (early : (session.step step).clock < deadline) :
    ∃ after, AtRest after (session.step step) ∧
      ((session.step step).strand after id).Awaits source generation config deadline ∧
      (session.step step).eventsOf id = session.eventsOf id ∧
      (session.step step).settings = session.settings := by
  rw [rest.clock_step quiet] at early
  rw [rest.overtakes_eq] at spared
  obtain ⟨after, restAfter, strands, -⟩ := rest.step step quiet
  obtain ⟨waits, events⟩ := awaits.waits spared early
  have settings := ((session.strand documents id).turned step).settings spared
  rw [← strands] at waits events settings
  exact ⟨after, restAfter, waits, events, settings⟩

theorem waits_steps {steps : List Step} (rest : AtRest documents session)
    (awaits : (session.strand documents id).Awaits source generation config deadline)
    (quiet : Step.AllQuiet steps) (alone : session.leftAlone id deadline steps = true)
    (early : (session.steps steps).clock < deadline) :
    ∃ after, AtRest after (session.steps steps) ∧
      ((session.steps steps).strand after id).Awaits source generation config deadline ∧
      (session.steps steps).eventsOf id = session.eventsOf id ∧
      (session.steps steps).settings = session.settings := by
  induction steps generalizing session documents with
  | nil => exact ⟨documents, rest, awaits, rfl, rfl⟩
  | cons step later induction =>
      have ahead : ¬deadline ≤ session.clock := Nat.not_le_of_lt awaits.ahead
      simp only [leftAlone, ahead, decide_false, Bool.false_or, Bool.and_eq_true,
        Bool.not_eq_true'] at alone
      obtain ⟨between, restBetween, -, -⟩ := rest.step step quiet.head
      have soon := Nat.lt_of_le_of_lt (restBetween.clock_le_steps quiet.tail) early
      obtain ⟨next, restNext, waits, events, settings⟩ :=
        rest.waits_step awaits quiet.head alone.1 soon
      obtain ⟨after, restAfter, waitsAfter, eventsAfter, settingsAfter⟩ :=
        induction restNext waits quiet.tail alone.2 early
      exact ⟨after, restAfter, waitsAfter, eventsAfter.trans events,
        settingsAfter.trans settings⟩

/-- No run of a generation that is over fires. -/
theorem firings_of_spent (rest : AtRest documents session)
    (spent : (session.strand documents id).Spent generation) (step : Step) :
    (session.firings step).filter (·.2 = (id, generation)) = [] := by
  cases step with
  | advance duration =>
      rw [rest.filter_firings]
      cases fires : (session.strand documents id).firing? (session.clock + duration) with
      | none => rfl
      | some firing =>
          obtain ⟨at_, other⟩ := firing
          have different : other ≠ generation := by
            rintro rfl
            exact spent.not_fires _ at_ fires
          simp [different]
  | _ => rfl

theorem firings_of_awaits (rest : AtRest documents session)
    (awaits : (session.strand documents id).Awaits source generation config deadline)
    (step : Step) :
    (session.firings step).filter (·.2 = (id, generation)) =
      if deadline ≤ session.clock + step.duration then [(deadline, id, generation)]
      else [] := by
  cases step with
  | advance duration =>
      rw [rest.filter_firings, awaits.firing?_eq, Step.duration]
      split
      · simp
      · rfl
  | _ => exact (if_neg (Nat.not_le_of_lt awaits.ahead)).symm

theorem firingsAlong_of_spent {steps : List Step} (rest : AtRest documents session)
    (spent : (session.strand documents id).Spent generation)
    (quiet : Step.AllQuiet steps) :
    (session.firingsAlong steps).filter (·.2 = (id, generation)) = [] := by
  induction steps generalizing session documents with
  | nil => rfl
  | cons step later induction =>
      obtain ⟨after, restAfter, strands, -⟩ := rest.step step quiet.head
      have spentAfter := spent.stays step
      rw [← strands] at spentAfter
      rw [firingsAlong, List.filter_append, rest.firings_of_spent spent,
        induction restAfter spentAfter quiet.tail, List.append_nil]

/-- A run that waits for its timer fires when its time has come, unless it is overtaken. -/
theorem firingsAlong_of_awaits {steps : List Step} (rest : AtRest documents session)
    (awaits : (session.strand documents id).Awaits source generation config deadline)
    (quiet : Step.AllQuiet steps) :
    (session.firingsAlong steps).filter (·.2 = (id, generation)) =
      if deadline ≤ (session.steps steps).clock ∧
          session.leftAlone id deadline steps = true then
        [(deadline, id, generation)]
      else [] := by
  induction steps generalizing session documents with
  | nil =>
      have ahead : ¬deadline ≤ (session.steps []).clock := Nat.not_le_of_lt awaits.ahead
      rw [if_neg fun both => ahead both.1]
      rfl
  | cons step later induction =>
      have ahead : ¬deadline ≤ session.clock := Nat.not_le_of_lt awaits.ahead
      have onwards : session.steps (step :: later) = (session.step step).steps later := rfl
      obtain ⟨after, restAfter, strands, -⟩ := rest.step step quiet.head
      have clock := rest.clock_step quiet.head
      rw [firingsAlong, List.filter_append, rest.firings_of_awaits awaits, ← clock, leftAlone,
        onwards]
      simp only [ahead, decide_false, Bool.false_or, Bool.and_eq_true, Bool.not_eq_true']
      cases overtaken : session.overtakes id step with
      | true =>
          rw [rest.overtakes_eq] at overtaken
          have spent := awaits.overtaken overtaken
          rw [← strands] at spent
          rw [restAfter.firingsAlong_of_spent spent quiet.tail, clock,
            Step.duration_of_overtakes overtaken]
          simp [ahead]
      | false =>
          by_cases passed : deadline ≤ (session.step step).clock
          · have spent : ((session.step step).strand after id).Spent generation := by
              rw [strands]
              rw [clock] at passed
              cases step with
              | advance duration => exact (awaits.fires passed).1
              | _ => exact absurd passed ahead
            have arrives := Nat.le_trans passed (restAfter.clock_le_steps quiet.tail)
            have alone : leftAlone id deadline (session.step step) later = true := by
              cases later <;> simp [leftAlone, passed]
            rw [restAfter.firingsAlong_of_spent spent quiet.tail]
            simp [passed, arrives, alone]
          · obtain ⟨next, restNext, waits, -, -⟩ :=
              rest.waits_step awaits quiet.head overtaken (Nat.lt_of_not_le passed)
            rw [induction restNext waits quiet.tail]
            simp [passed]

/-- The host is told of a run once it has waited long enough. -/
theorem eventsOf_of_awaits {entry : Entry} {steps : List Step} {duration : Nat}
    (rest : AtRest documents session)
    (awaits : (session.strand documents id).Awaits source generation
      session.settings.workerConfig deadline)
    (found : session.registry.find? id = some entry)
    (passes : session.Passes id deadline steps duration) :
    (session.steps (steps ++ [.advance duration])).eventsOf id =
      session.eventsOf id ++ [(deadline, (session.steps steps).verdict entry)] := by
  obtain ⟨after, restAfter, waits, events, settings⟩ :=
    rest.waits_steps awaits passes.quiet passes.alone passes.early
  obtain ⟨final, -, strands, -⟩ := restAfter.step (.advance duration) nofun
  have told := (waits.fires passes.late).2
  rw [← strands, ← settings, show (Strand.id _) = id from rfl, verdict_eq _ _ session.held]
    at told
  cases found.symm.trans (rest.shows.find?_entry awaits.known)
  rw [steps_concat, ← events]
  exact told

/-- An edit that is answered so has armed the timer of the document. -/
theorem scheduled (rest : AtRest documents session)
    (answered : (session.edited id).answer = .outcome .scheduled) :
    ∃ after source generation, AtRest after (session.edited id) ∧
      ((session.edited id).strand after id).Awaits source generation
        (session.edited id).settings.workerConfig session.due ∧
      (session.edited id).eventsOf id = session.eventsOf id ∧
      (session.edited id).settings = session.settings := by
  obtain ⟨after, restAfter, strands, answers⟩ := rest.step (.act (.edit id)) nofun
  have answer : (session.edited id).answer =
      if session.held then (session.strand documents id).edit.1 else .noScheduler :=
    answers id rfl
  rw [answer] at answered
  cases held : session.held with
  | false => simp [held] at answered
  | true =>
      rw [if_pos held] at answered
      have edits : (session.edited id).strand after id =
          (session.strand documents id).edit.2 := by
        refine (strands id).trans ?_
        simp [Strand.step, Strand.perform, Action.needsScheduler, strand, held]
      cases known : documents id with
      | none =>
          rw [Strand.edit_unknown (by exact known)] at answered
          cases answered
      | some tracked =>
          obtain ⟨before, -, events, awaits⟩ := Strand.awaits_of_scheduled (by exact held)
            (rest.shows.known known).1 rest.shows.debounce answered
          have settings := congrArg Strand.settings
            (Strand.edit_eq (session.strand documents id))
          rw [← edits] at events awaits settings
          have same : (session.edited id).settings = session.settings := settings
          exact ⟨after, before.source, before.generation + 1, restAfter, same ▸ awaits,
            events, same⟩

/-- A burst of edits keeps the document waiting. -/
theorem typing {burst : List Step} {latest : Nat} (rest : AtRest documents session)
    (awaits : (session.strand documents id).Awaits source generation
      session.settings.workerConfig (latest + session.settings.debounce))
    (quiet : Step.AllQuiet burst) (types : session.typesOn id latest burst = true) :
    ∃ after, AtRest after (session.steps burst) ∧
      (session.steps burst).eventsOf id = session.eventsOf id := by
  induction burst generalizing session documents source generation latest with
  | nil => exact ⟨documents, rest, rfl⟩
  | cons step later induction =>
      rw [typesOn] at types
      split at types
      · rename_i edit
        subst edit
        rw [Bool.and_eq_true, decide_eq_true_eq] at types
        obtain ⟨between, newSource, newGeneration, restBetween, waits, events, settings⟩ :=
          rest.scheduled types.1
        rw [due, ← settings] at waits
        obtain ⟨after, restAfter, eventsAfter⟩ :=
          induction restBetween waits quiet.tail types.2
        exact ⟨after, restAfter, eventsAfter.trans events⟩
      · simp only [Bool.and_eq_true, Bool.not_eq_true', decide_eq_true_eq] at types
        obtain ⟨⟨spared, soon⟩, types⟩ := types
        obtain ⟨between, restBetween, waits, events, settings⟩ :=
          rest.waits_step awaits quiet.head spared soon
        rw [← settings] at waits
        obtain ⟨after, restAfter, eventsAfter⟩ :=
          induction restBetween waits quiet.tail types
        exact ⟨after, restAfter, eventsAfter.trans events⟩

theorem debounces (rest : AtRest documents session) (id : DocumentId) :
    session.Debounces id := by
  have delivers : ∀ {documents session entry wait duration}, AtRest documents session →
      session.Schedules id entry →
      (session.edited id).Passes id session.due wait duration →
      ((session.edited id).steps (wait ++ [.advance duration])).eventsOf id =
        session.eventsOf id ++
          [(session.due, ((session.edited id).steps wait).verdict entry)] := by
    intro documents session entry wait duration rest schedules passes
    obtain ⟨after, source, generation, restAfter, awaits, events, -⟩ :=
      rest.scheduled schedules.answered
    rw [restAfter.eventsOf_of_awaits awaits schedules.found passes, events]
  constructor
  case fires =>
    intro entry later schedules quiet
    obtain ⟨after, source, generation, restAfter, awaits, -, -⟩ :=
      rest.scheduled schedules.answered
    cases schedules.found.symm.trans (restAfter.shows.find?_entry awaits.known)
    exact restAfter.firingsAlong_of_awaits awaits quiet
  case delivers => exact delivers rest
  case bursts =>
    rintro first last entry burst wait duration schedules quiet types rfl again passes
    obtain ⟨after, source, generation, restAfter, awaits, events, settings⟩ :=
      rest.scheduled schedules.answered
    rw [due, ← settings] at awaits
    obtain ⟨afterBurst, restLast, eventsLast⟩ := restAfter.typing awaits quiet types
    rw [delivers restLast again passes, eventsLast, events]

/-- Whatever is under way for a document was armed by an edit. -/
theorem armed_of_steps {begun : Session} {steps : List Step}
    (rest : AtRest (fun _ => none) begun) (quiet : Step.AllQuiet steps) :
    ∃ documents, AtRest documents (begun.steps steps) ∧
      ∀ id tracked work deadline, documents id = some tracked →
        tracked.work? = some work → work.phase = .sleeping deadline →
          ∃ before edit after, steps = before ++ edit :: after ∧
            (begun.steps before).Arms id tracked.generation deadline edit := by
  induction steps using List.reverseRecOn with
  | nil =>
      refine ⟨_, rest, fun _ _ _ _ known => ?_⟩
      cases known
  | append_singleton steps step induction =>
      obtain ⟨documents, restHere, armed⟩ := induction quiet.left
      obtain ⟨after, restAfter, strands, answers⟩ := restHere.step step quiet.right.head
      rw [steps_concat]
      refine ⟨after, restAfter, ?_⟩
      intro id tracked work deadline known underWay sleeps
      have knownAfter :
          (((begun.steps steps).strand documents id).step step).tracked? = some tracked := by
        rw [← strands]
        exact known
      rcases Strand.work_of_step knownAfter underWay with
        knownBefore | ⟨edits, ⟨before, knownBefore, generation⟩, phase, scheduled⟩
      · obtain ⟨earlier, edit, later, split, arms⟩ :=
          armed id tracked work deadline knownBefore underWay sleeps
        exact ⟨earlier, edit, later ++ [step], by simp [split], arms⟩
      · refine ⟨steps, step, [], rfl, edits, fun isEdit => ?_,
          ⟨_, _, restHere.shows.find?_entry knownBefore, restAfter.shows.find?_entry known,
            generation, rfl⟩, ?_⟩
        · rw [answers id (isEdit ▸ rfl)]
          exact scheduled isEdit
        · rw [← strands, sleeps] at phase
          exact Phase.sleeping.inj phase

end AtRest

/-- Highlights that were not called for are those of an edit. -/
theorem tellsOfEdits {begun : Session} {steps : List Step}
    (rest : AtRest (fun _ => none) begun) (id : DocumentId)
    (quiet : Step.AllQuiet steps) : begun.TellsOfEdits id steps := by
  rintro earlier step later rfl uncalled time publication told
  obtain ⟨documents, restHere, armed⟩ := rest.armed_of_steps quiet.left
  obtain ⟨after, -, strands, -⟩ := restHere.step step quiet.right.head
  have events := congrArg Strand.events (strands id)
  have news : (time, Event.highlights id publication) ∈
      (((begun.steps earlier).strand documents id).step step).events.drop
        ((begun.steps earlier).strand documents id).events.length := by
    rw [← events]
    exact told
  obtain ⟨tracked, work, known, underWay, sleeps, generation⟩ :=
    Strand.highlights_of_step uncalled news
  rw [generation]
  exact armed id tracked work time known underWay sleeps

/-- An edit that is answered with a timer fires once, a debounce later, unless it is
overtaken before; the host is then told of the document as it stands, and of a burst
of edits only once.  Highlights that the host has not called for come in no other
way. -/
theorem edits_debounced {settings : Settings} {cache : Option Cache} {begun : Session}
    {stopwatch : Run → Nat} {steps : List Step} (id : DocumentId)
    (started : start settings cache stopwatch = .ok begun)
    (sound : ∀ given, cache = some given → given.Sound) (quiet : Step.AllQuiet steps) :
    (begun.steps steps).Debounces id ∧ begun.TellsOfEdits id steps := by
  have rest := atRest_of_start started sound
  obtain ⟨documents, restHere, -⟩ := rest.steps steps quiet
  exact ⟨restHere.debounces id, tellsOfEdits rest id quiet⟩

/-- The host registers a document. -/
def registering : List Step := [.create (.quiet ['a'] true .tracked), .act (.register 0)]

/-- A little later, the document has got another text. -/
def retyping : List Step := [.advance 50, .act (.replace 0 ['b']), .advance 20]

/-- The session after an edit of the document. -/
def typed : Session := ((initial .standard none).steps registering).edited ⟨1⟩

/-- The session after another edit, which is soon enough to overtake the first. -/
def retyped : Session := (typed.steps retyping).edited ⟨1⟩

theorem edits_debounced_of_retyping :
    (typed.firingsAlong (retyping ++ [.act (.edit ⟨1⟩), .advance 300])).filter
        (·.2 = (⟨1⟩, 1)) = [] ∧
      (retyped.firingsAlong [.advance 300]).filter (·.2 = (⟨1⟩, 2)) = [(270, ⟨1⟩, 2)] ∧
      (retyped.steps [.advance 100, .advance 300]).eventsOf ⟨1⟩ =
        [(270, .highlights ⟨1⟩
          ⟨2, ['b'], Highlights.compute ['b'] Settings.standard.highlightConfig⟩)] ∧
      ∃ before edit after,
        registering ++ [.act (.edit ⟨1⟩)] ++ retyping ++
            [.act (.edit ⟨1⟩), .advance 100] = before ++ edit :: after ∧
          ((initial .standard none).steps before).Arms ⟨1⟩ 2 270 edit := by
  have sound : ∀ given, (none : Option Cache) = some given → given.Sound := nofun
  have quiet : Step.AllQuiet
      (registering ++ [.act (.edit ⟨1⟩)] ++ retyping ++
        [.act (.edit ⟨1⟩), .advance 100, .advance 300]) := by
    intro source member
    simp only [registering, retyping, List.cons_append, List.nil_append, List.mem_cons,
      Step.create.injEq, reduceCtorEq, List.not_mem_nil, or_false] at member
    rw [member]
    rfl
  have quietRetyping : Step.AllQuiet (retyping ++ [.act (.edit ⟨1⟩), .advance 300]) := by
    simp [Step.AllQuiet, retyping]
  have promise := fun steps => @edits_debounced .standard none (initial .standard none)
    (fun _ => 0) steps ⟨1⟩ rfl sound
  have debounces := (promise registering quiet.left.left.left).1
  have debouncesAgain := (promise _ quiet.left).1
  have isTyped : (initial .standard none).steps (registering ++ [.act (.edit ⟨1⟩)]) =
      typed := by
    rw [steps_concat]
    rfl
  rw [steps_append, isTyped] at debouncesAgain
  have first : ((initial .standard none).steps registering).Schedules ⟨1⟩
      ⟨⟨1⟩, 0, .pending, 1, some 1⟩ := ⟨by decide, by decide⟩
  have second : (typed.steps retyping).Schedules ⟨1⟩ ⟨⟨1⟩, 0, .pending, 2, some 2⟩ :=
    ⟨by decide, by decide⟩
  have dueThen : (typed.steps retyping).due = 270 := by decide
  have passes : retyped.Passes ⟨1⟩ (typed.steps retyping).due [.advance 100] 300 :=
    ⟨nofun, by decide, by decide, by decide⟩
  have silentBefore : ((initial .standard none).steps registering).eventsOf ⟨1⟩ = [] := by
    decide
  have verdictThen : (retyped.steps [.advance 100]).verdict
      ⟨⟨1⟩, 0, .pending, 2, some 2⟩ = .highlights ⟨1⟩
        ⟨2, ['b'], Highlights.compute ['b'] Settings.standard.highlightConfig⟩ := rfl
  have told : (retyped.steps ([.advance 100] ++ [.advance 300])).eventsOf ⟨1⟩ =
      ((initial .standard none).steps registering).eventsOf ⟨1⟩ ++
        [((typed.steps retyping).due, (retyped.steps [.advance 100]).verdict
          ⟨⟨1⟩, 0, .pending, 2, some 2⟩)] :=
    debounces.bursts first quietRetyping.left (by decide) rfl second passes
  rw [silentBefore, dueThen, verdictThen, List.nil_append] at told
  refine ⟨(debounces.fires first quietRetyping).trans (if_neg (by decide)), ?_, told, ?_⟩
  · have fires := debouncesAgain.fires second (show Step.AllQuiet [.advance 300] by
      simp [Step.AllQuiet])
    rw [if_pos (by decide), dueThen] at fires
    exact fires
  · have tells := (promise _ quiet).2 (registering ++ [.act (.edit ⟨1⟩)] ++ retyping ++
      [.act (.edit ⟨1⟩), .advance 100]) (.advance 300) [] (by simp) nofun
    refine tells 270
      ⟨2, ['b'], Highlights.compute ['b'] Settings.standard.highlightConfig⟩ ?_
    have silentStill : (retyped.steps [.advance 100]).eventsOf ⟨1⟩ = [] := by decide
    have isRetyped : (initial .standard none).steps
        (registering ++ [.act (.edit ⟨1⟩)] ++ retyping ++
          [.act (.edit ⟨1⟩), .advance 100]) = retyped.steps [.advance 100] := by
      rw [steps_append, steps_append, isTyped]
      rfl
    rw [isRetyped, newsOf, silentStill, ← steps_concat, told]
    exact List.mem_cons_self

end Session

end LogTint
