import LogTint.Proofs.OwnRuns
import LogTint.Proofs.StillWork

/-!
# What becomes of an edited document

An edit of a document that does not act comes to its end at once.  What it makes of the
document depends on the entry, the runs and the length of this document only, and on
the settings and the time.
-/

namespace LogTint

/-- What an edit makes of a document. -/
structure Fate where
  /-- Absent if nothing comes of the edit. -/
  outcome? : Option EditOutcome := none
  /-- The entry, if the document is still tracked. -/
  kept? : Option Entry
  runs : List Run
  occurrences : List Occurrence := []
  /-- The source whose length is asked for. -/
  asked : List SourceId := []
  /-- The document that the host is going to be told of. -/
  told : List DocumentId := []

/-- What comes of an edit of a document with so many characters. -/
def WorkerConfig.verdict (config : WorkerConfig) (chars : Nat) : EditOutcome :=
  if config.maxChars < chars then .bypassed else .scheduled

/-- What an edit makes of a tracked document with the given runs.  There is a verdict
on it if it is alive. -/
def Entry.fate (entry : Entry) (runs : List Run) (config : WorkerConfig) (clock : Nat)
    (verdict? : Option EditOutcome) : Fate :=
  let (cancelled, runs) := Run.cancel entry.id entry.armed runs
  let superseded := if cancelled then [Occurrence.superseded] else []
  match verdict? with
  | none =>
      { kept? := none
        runs
        occurrences := [.edit, .documentClosed]
        told := [entry.id] }
  | some .bypassed =>
      { outcome? := some .bypassed
        kept? := some (entry.renewed .idle)
        runs
        occurrences := .edit :: superseded ++ [.bypassed]
        asked := [entry.source] }
  | some .scheduled =>
      { outcome? := some .scheduled
        kept? := some { entry.renewed .pending with armed := some (entry.generation + 1) }
        runs := runs ++
          [{ id := entry.id
             generation := entry.generation + 1
             source := entry.source
             config
             origin := .timer
             phase := .sleeping (clock + config.debounce) }]
        occurrences := .edit :: superseded
        asked := [entry.source] }

theorem Entry.outcome?_fate (entry : Entry) (runs : List Run) (config : WorkerConfig)
    (clock : Nat) (verdict? : Option EditOutcome) :
    (entry.fate runs config clock verdict?).outcome? = verdict? := by
  match verdict? with
  | none | some .bypassed | some .scheduled => rfl

/-- A document that is alive is asked for its length and stays tracked. -/
theorem Entry.fate_living (entry : Entry) (runs : List Run) (config : WorkerConfig)
    (clock : Nat) (verdict : EditOutcome) :
    (entry.fate runs config clock (some verdict)).asked = [entry.source] ∧
      (entry.fate runs config clock (some verdict)).told = [] := by
  cases verdict <;> exact ⟨rfl, rfl⟩

/-- The outcome that an answer tells of. -/
def Answer.outcome? : Answer → Option EditOutcome
  | .outcome told => some told
  | _ => none

namespace Session

variable {session middle final : Session} {id : DocumentId} {entry : Entry}

/-- The length of a source, if it is alive. -/
def lengthOf? (session : Session) (source : SourceId) : Option Nat :=
  (session.sources[source]?.filter Source.isAlive).map Source.length

theorem lengthOf?_eq_some_iff {source : SourceId} {chars : Nat} :
    session.lengthOf? source = some chars ↔
      ∃ document, session.sources[source]? = some document ∧ document.isAlive = true ∧
        document.length = chars := by
  simp [lengthOf?, Option.filter_eq_some_iff, and_assoc]

theorem lengthOf?_eq_none_iff {source : SourceId} :
    session.lengthOf? source = none ↔ session.isAlive source = false := by
  rw [lengthOf?, Option.map_eq_none_iff, isAlive_eq, Option.isSome_eq_false_iff,
    Option.isNone_iff_eq_none]

/-- What an edit makes of a document when nothing comes between. -/
def fate (session : Session) (id : DocumentId) : Fate :=
  match session.registry.find? id with
  | none => { kept? := none, runs := session.runsOf id }
  | some entry =>
      let config := session.settings.workerConfig
      entry.fate (session.runsOf id) config session.clock
        ((session.lengthOf? entry.source).map config.verdict)

theorem fate_of_found (found : session.registry.find? id = some entry) :
    session.fate id =
      entry.fate (session.runsOf id) session.settings.workerConfig session.clock
        ((session.lengthOf? entry.source).map session.settings.workerConfig.verdict) := by
  rw [fate, found]

theorem lengthOf?_congr
    (sources : final.sources.map Source.unscripted = session.sources.map Source.unscripted)
    (source : SourceId) : final.lengthOf? source = session.lengthOf? source := by
  have length : ∀ sources : List Source,
      (sources[source]?.filter Source.isAlive).map Source.length =
        ((sources.map Source.unscripted)[source]?.filter Source.isAlive).map
          Source.length := by
    intro sources
    rw [List.getElem?_map]
    cases sources[source]? with
    | none => rfl
    | some document => cases alive : document.isAlive <;> simp [Option.filter, alive]
  rw [lengthOf?, length, sources, ← length, lengthOf?]

theorem fate_congr (found : final.registry.find? id = session.registry.find? id)
    (runs : final.runsOf id = session.runsOf id)
    (sources : final.sources.map Source.unscripted = session.sources.map Source.unscripted)
    (settings : final.settings = session.settings) (clock : final.clock = session.clock) :
    final.fate id = session.fate id := by
  simp only [fate, found, runs, settings, clock, lengthOf?_congr sources]

/-! ### Changes of one document -/

/-- One document is given an entry and runs, and something is counted. -/
structure Touched (id : DocumentId) (kept? : Option Entry) (runs : List Run)
    (occurrences : List Occurrence) (session final : Session) : Prop where
  ids : final.registry.ids =
    session.registry.ids.filter fun other => decide (other ≠ id) || kept?.isSome
  find? : ∀ other, final.registry.find? other =
    if other = id then kept? else session.registry.find? other
  runs : ActsOn id (fun _ => runs) session final
  rest : final =
    { session with
      registry := final.registry
      runs := final.runs
      metrics := occurrences.foldl Metrics.record session.metrics }

namespace Touched

variable {last? : Option Entry} {runs later : List Run} {occurrences more : List Occurrence}

theorem found (touched : Touched id last? runs occurrences session final) :
    final.registry.find? id = last? := by
  rw [touched.find?, if_pos rfl]

theorem here (touched : Touched id last? runs occurrences session final) :
    final.runsOf id = runs :=
  touched.runs.here

theorem clock (touched : Touched id last? runs occurrences session final) :
    final.clock = session.clock := by
  rw [touched.rest]

theorem trans (first : Touched id (some entry) runs occurrences session middle)
    (second : Touched id last? later more middle final) :
    Touched id last? later (occurrences ++ more) session final where
  ids := by
    rw [second.ids, first.ids, List.filter_filter]
    apply List.filter_congr
    simp
  find? other := by
    rw [second.find?, first.find?]
    by_cases here : other = id <;> simp [here]
  runs := first.runs.trans second.runs
  rest := by
    rw [second.rest, first.rest, List.foldl_append]

/-- A document that stays tracked. -/
theorem of_edited (found : session.registry.find? id = some entry)
    (change : Entry → Entry) {registry : Registry}
    (edited : Registry.Edited
      (fun other entry => if other = id then change entry else entry)
      session.registry registry)
    (acts : ActsOn id (fun _ => runs) session final)
    (rest : final =
      { session with
        registry
        runs := final.runs
        metrics := occurrences.foldl Metrics.record session.metrics }) :
    Touched id (some (change entry)) runs occurrences session final where
  ids := by
    rw [rest, edited.ids]
    simp
  find? other := by
    rw [rest, edited.find?]
    by_cases here : other = id
    · simp [here, found]
    · simp [here]
  runs := acts
  rest := by
    rw [show final.registry = registry by rw [rest]]
    exact rest

end Touched

/-! ### Operations on one document -/

theorem modifyEntry_touched (found : session.registry.find? id = some entry)
    (change : Entry → Entry) (keeps : ∀ entry, (change entry).id = entry.id) :
    Touched id (some (change entry)) (session.runsOf id) [] session
      (session.modifyEntry id change) :=
  .of_edited found change (Registry.edited_modify change keeps session.registry id)
    ⟨rfl, fun _ _ => rfl⟩ rfl

theorem setState_touched (found : session.registry.find? id = some entry)
    (state : DocumentState) :
    Touched id (some (if entry.state = .closed then entry else { entry with state }))
      (session.runsOf id) [] session (session.setState id state) :=
  modifyEntry_touched found
    (fun entry => if entry.state = .closed then entry else { entry with state })
    (by intro entry; split <;> rfl)

theorem count_touched (found : session.registry.find? id = some entry)
    (occurrence : Occurrence) :
    Touched id (some entry) (session.runsOf id) [occurrence] session
      (session.count occurrence) :=
  .of_edited found (fun entry => entry)
    ((Registry.Edited.refl session.registry).congr fun _ _ _ => by simp)
    ⟨rfl, fun _ _ => rfl⟩ rfl

theorem cancelArmed_touched (found : session.registry.find? id = some entry) :
    (session.cancelArmed id).1 = (Run.cancel id entry.armed (session.runsOf id)).1 ∧
      Touched id (some entry.disarmed) (Run.cancel id entry.armed (session.runsOf id)).2 []
        session (session.cancelArmed id).2 := by
  obtain ⟨registry, edited, cancelled⟩ := session.cancelArmed_edited id
  have acts := session.cancelArmed_actsOn id
  rw [found, Option.bind_some] at acts
  exact ⟨acts.1,
    .of_edited found Entry.disarmed edited ⟨acts.2.here, acts.2.elsewhere⟩ cancelled⟩

theorem supersede_touched (found : session.registry.find? id = some entry) :
    Touched id (some entry.bumped) (Run.cancel id entry.armed (session.runsOf id)).2
      (if (Run.cancel id entry.armed (session.runsOf id)).1 then [.superseded] else [])
      session (session.supersede id) := by
  have bumped := modifyEntry_touched found
    (fun entry => { entry with generation := entry.generation + 1 }) fun _ => rfl
  obtain ⟨flag, disarmed⟩ := cancelArmed_touched bumped.found
  rw [bumped.here] at flag disarmed
  have cancelled := bumped.trans disarmed
  unfold supersede
  dsimp only
  rw [flag]
  split
  case isTrue =>
    have counted := cancelled.trans (count_touched cancelled.found .superseded)
    rw [cancelled.here] at counted
    exact counted
  case isFalse => exact cancelled

/-- A document that is edited and given a state. -/
theorem renew_touched (found : session.registry.find? id = some entry)
    (state : DocumentState) :
    Touched id (some (entry.renewed state))
      (Run.cancel id entry.armed (session.runsOf id)).2
      (if (Run.cancel id entry.armed (session.runsOf id)).1 then [.superseded] else [])
      session ((session.supersede id).setState id state) := by
  have superseded := supersede_touched found
  have settled := superseded.trans (setState_touched superseded.found state)
  rw [superseded.here, List.append_nil] at settled
  exact settled

theorem release_touched (found : session.registry.find? id = some entry) :
    Touched id none (Run.cancel id entry.armed (session.runsOf id)).2 [.documentClosed]
      session (session.release id) := by
  obtain ⟨-, disarmed⟩ := cancelArmed_touched found
  rw [release, if_pos (Registry.contains_iff.mpr ⟨entry, found⟩)]
  refine disarmed.trans ⟨?_, ?_, ⟨disarmed.here, fun _ _ => rfl⟩, rfl⟩
  · simp [Registry.ids, Registry.erase, count, List.filter_map, Function.comp_def]
  · exact Registry.find?_erase _ id

theorem arm_touched (found : session.registry.find? id = some entry) (source : SourceId)
    (generation : Nat) (config : WorkerConfig) :
    Touched id (some { entry with armed := some generation })
      (session.runsOf id ++
        [{ id, generation, source, config, origin := .timer
           phase := .sleeping (session.clock + config.debounce) }]) []
      session (session.arm id source generation config) := by
  let change (entry : Entry) : Entry := { entry with armed := some generation }
  have joined := session.addRun_actsOn
    { id, generation, source, config, origin := .timer
      phase := .sleeping (session.clock + config.debounce) }
  exact .of_edited found change
    (Registry.edited_modify change (fun _ => rfl) session.registry id)
    ⟨joined.here, joined.elsewhere⟩ rfl

theorem untracked_touched (untracked : session.registry.find? id = none) :
    Touched id none (session.runsOf id) [] session session where
  ids := by
    symm
    rw [List.filter_eq_self]
    intro other member
    obtain ⟨entry, found⟩ := Registry.mem_ids_iff.mp member
    have different : other ≠ id := by
      rintro rfl
      cases untracked.symm.trans found
    simp [different]
  find? other := by
    by_cases here : other = id <;> simp [here, untracked]
  runs := ⟨rfl, fun _ _ => rfl⟩
  rest := rfl

/-- A document that is found given up. -/
theorem abandon_touched (found : session.registry.find? id = some entry)
    (config : WorkerConfig) (clock : Nat) :
    Touched id (entry.fate (session.runsOf id) config clock none).kept?
      (entry.fate (session.runsOf id) config clock none).runs
      (entry.fate (session.runsOf id) config clock none).occurrences
      session ((session.count .edit).release id) := by
  have counted := count_touched found .edit
  have released := counted.trans (release_touched counted.found)
  rw [counted.here] at released
  rw [Entry.fate, Registry.find?_id found]
  exact released

/-- A document whose length is known. -/
theorem applyEdit_touched (found : session.registry.find? id = some entry) (chars : Nat)
    {fate : Fate}
    (isFate : entry.fate (session.runsOf id) session.settings.workerConfig session.clock
      (some (session.settings.workerConfig.verdict chars)) = fate) :
    ((session.count .edit).applyEdit id chars).1.outcome? = fate.outcome? ∧
      Touched id fate.kept? fate.runs fate.occurrences session
        ((session.count .edit).applyEdit id chars).2 := by
  have counted := count_touched found .edit
  rw [applyEdit, counted.found, ← isFate, WorkerConfig.verdict, Entry.fate,
    Registry.find?_id found]
  dsimp only
  rw [show (session.count .edit).settings = session.settings from rfl]
  split
  case isTrue =>
    refine ⟨rfl, ?_⟩
    have renewed := counted.trans (renew_touched counted.found .idle)
    have bypassed := renewed.trans (count_touched renewed.found .bypassed)
    rw [renewed.here, counted.here] at bypassed
    exact bypassed
  case isFalse =>
    refine ⟨rfl, ?_⟩
    have renewed := counted.trans (renew_touched counted.found .pending)
    have armed := renewed.trans (arm_touched renewed.found entry.source
      (entry.generation + 1) session.settings.workerConfig)
    rw [renewed.here, renewed.clock, counted.here, List.append_nil] at armed
    exact armed

end Session

end LogTint
