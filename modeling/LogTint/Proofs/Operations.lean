import LogTint.Proofs.Runs
import LogTint.Schedule.Performing

/-!
# What operations change

Each operation on a session is described by the entries it leaves, by the runs
it keeps, and by the fields of the session that it changes; every other field
is as before.
-/

namespace LogTint

namespace Registry

/-- The same documents are tracked, and the entry of each is changed as
described. -/
structure Edited (change : DocumentId → Entry → Entry) (before after : Registry) :
    Prop where
  ids : after.ids = before.ids
  find? : ∀ id, after.find? id = (before.find? id).map (change id)

namespace Edited

variable {first second : DocumentId → Entry → Entry}
  {before middle after : Registry} {id : DocumentId} {entry : Entry}

theorem refl (registry : Registry) : Edited (fun _ entry => entry) registry registry :=
  ⟨rfl, fun id => by simp⟩

theorem trans (sooner : Edited first before middle)
    (later : Edited second middle after) :
    Edited (fun id entry => second id (first id entry)) before after :=
  ⟨later.ids.trans sooner.ids, fun id => by
    rw [later.find?, sooner.find?, Option.map_map]
    rfl⟩

theorem congr (edited : Edited first before after)
    (same : ∀ id entry, before.find? id = some entry →
      first id entry = second id entry) :
    Edited second before after :=
  ⟨edited.ids, fun id => by
    rw [edited.find?]
    cases found : before.find? id with
    | none => rfl
    | some entry => simp [same id entry found]⟩

theorem find?_some (edited : Edited first before after)
    (found : before.find? id = some entry) :
    after.find? id = some (first id entry) := by
  rw [edited.find?, found, Option.map_some]

theorem exists_of_find? (edited : Edited first before after)
    (found : after.find? id = some entry) :
    ∃ earlier, before.find? id = some earlier ∧ entry = first id earlier := by
  rw [edited.find?, Option.map_eq_some_iff] at found
  obtain ⟨earlier, foundBefore, same⟩ := found
  exact ⟨earlier, foundBefore, same.symm⟩

end Edited

theorem edited_modify (change : Entry → Entry)
    (keeps : ∀ entry, (change entry).id = entry.id)
    (registry : Registry) (id : DocumentId) :
    Edited (fun other entry => if other = id then change entry else entry)
      registry (registry.modify id change) :=
  ⟨ids_modify keeps registry id, fun other => by
    rw [find?_modify keeps]
    by_cases same : other = id <;> simp [same]⟩

theorem edited_modifyAll (change : Entry → Entry)
    (keeps : ∀ entry, (change entry).id = entry.id) (registry : Registry) :
    Edited (fun _ => change) registry (registry.modifyAll change) :=
  ⟨ids_modifyAll keeps registry, find?_modifyAll keeps registry⟩

end Registry

namespace Entry

/-- The entry of a document without an armed run. -/
def disarmed (entry : Entry) : Entry := { entry with armed := none }

/-- The entry of a document after an edit whose run is yet to be armed. -/
def bumped (entry : Entry) : Entry :=
  { entry with generation := entry.generation + 1, armed := none }

/-- The entry of a document after an edit, in a given state unless it is
closed. -/
def renewed (state : DocumentState) (entry : Entry) : Entry :=
  if entry.state = .closed then entry.bumped else { entry.bumped with state }

theorem renewed_armed (state : DocumentState) (entry : Entry) :
    (entry.renewed state).armed = none := by
  unfold renewed
  split <;> rfl

theorem renewed_generation (state : DocumentState) (entry : Entry) :
    (entry.renewed state).generation = entry.generation + 1 := by
  unfold renewed
  split <;> rfl

theorem renewed_source (state : DocumentState) (entry : Entry) :
    (entry.renewed state).source = entry.source := by
  unfold renewed
  split <;> rfl

/-- The entry of a document that a run has moved from one state to another. -/
def advanced (before after : DocumentState) (entry : Entry) : Entry :=
  { entry with
    state := after
    armed := if before = .pending then none else entry.armed }

/-- The entry of a document whose scheduler is gone. -/
def shut (entry : Entry) : Entry :=
  { entry with state := .closed, armed := none }

end Entry

namespace Session

variable {session : Session} {id : DocumentId}

theorem isArmed_iff {key : DocumentId × Nat} :
    session.IsArmed key ↔
      ∃ entry, session.registry.find? key.1 = some entry ∧
        entry.armed = some key.2 := by
  unfold IsArmed
  rw [Option.bind_eq_some_iff]

theorem isAlive_eq (session : Session) (source : SourceId) :
    session.isAlive source = (session.sources[source]?.filter Source.isAlive).isSome := by
  unfold isAlive
  split <;> simp_all [Option.isSome_filter]

theorem droppedIds_sublist (session : Session) :
    session.droppedIds.Sublist session.registry.ids :=
  List.filter_sublist.map Entry.id

theorem contains_of_mem_ids (member : id ∈ session.registry.ids) :
    session.registry.contains id = true :=
  Registry.contains_iff.mpr (Registry.mem_ids_iff.mp member)

theorem mem_droppedIds_iff (ids : session.registry.ids.Nodup) {entry : Entry}
    (found : session.registry.find? id = some entry) :
    id ∈ session.droppedIds ↔ session.isAlive entry.source = false := by
  unfold droppedIds
  constructor
  · intro dropped
    obtain ⟨other, member, same⟩ := List.mem_map.mp dropped
    obtain ⟨member, gone⟩ := List.mem_filter.mp member
    have foundOther := Registry.find?_of_mem ids member
    rw [same] at foundOther
    cases found.symm.trans foundOther
    simpa using gone
  · intro gone
    have member := Registry.find?_mem found
    refine List.mem_map.mpr ⟨entry, List.mem_filter.mpr ⟨member, ?_⟩, ?_⟩
    · simp [gone]
    · exact Registry.find?_id found

/-- Cancelling the armed run of a document disarms its entry. -/
theorem cancelArmed_edited (session : Session) (id : DocumentId) :
    ∃ registry,
      Registry.Edited
        (fun other entry => if other = id then entry.disarmed else entry)
        session.registry registry ∧
      (session.cancelArmed id).2 =
        { session with registry, runs := (session.cancelArmed id).2.runs } := by
  have disarm := Registry.edited_modify Entry.disarmed (fun _ => rfl)
    session.registry id
  unfold cancelArmed
  split
  case h_1 unarmed =>
    refine ⟨session.registry, (Registry.Edited.refl session.registry).congr ?_, rfl⟩
    intro other entry found
    by_cases here : other = id
    · subst other
      rw [found, Option.bind_some] at unarmed
      rw [if_pos rfl, Entry.disarmed, ← unarmed]
    · rw [if_neg here]
  case h_2 =>
    dsimp only
    split
    case h_1 => exact ⟨_, disarm, rfl⟩
    case h_2 run _ => exact ⟨_, disarm, removeRun_eq _ run⟩

theorem cancelArmed_spec (session : Session)
    (distinct : Run.Distinct session.runs) (id : DocumentId) :
    ∃ registry runs,
      Registry.Edited
        (fun other entry => if other = id then entry.disarmed else entry)
        session.registry registry ∧
      Run.Kept (fun key => ¬(key.1 = id ∧ session.IsArmed key)) session.runs runs ∧
      (session.cancelArmed id).2 = { session with registry, runs } := by
  obtain ⟨registry, edited, cancelled⟩ := session.cancelArmed_edited id
  refine ⟨registry, _, edited, ?_, cancelled⟩
  unfold cancelArmed
  split
  case h_1 unarmed =>
    have notArmed : ∀ run ∈ session.runs,
        True ↔ ¬(run.key.1 = id ∧ session.IsArmed run.key) := by
      intro run _
      refine ⟨fun _ ⟨here, armed⟩ => ?_, fun _ => trivial⟩
      rw [IsArmed, here, unarmed] at armed
      cases armed
    exact (Run.Kept.refl distinct).congr notArmed
  case h_2 generation armed =>
    have armedIff : ∀ key : DocumentId × Nat,
        key ≠ (id, generation) ↔ ¬(key.1 = id ∧ session.IsArmed key) := by
      rintro ⟨other, number⟩
      rw [not_iff_not, Prod.mk.injEq]
      refine and_congr_right fun (here : other = id) => ?_
      rw [IsArmed, here, armed, Option.some_inj]
      exact eq_comm
    dsimp only
    split
    case h_1 missing =>
      refine (Run.Kept.refl distinct).congr fun run member => ?_
      rw [true_iff, ← armedIff]
      intro same
      have absent := List.find?_eq_none.mp missing run member
      exact absent (Run.is_iff.mpr same)
    case h_2 run success =>
      have runKey : run.key = (id, generation) := findRun?_key success
      have removed := removeRun_runs
        (session.modifyEntry id fun entry => { entry with armed := none }) distinct run
      refine removed.congr fun other _ => ?_
      rw [runKey, armedIff]

theorem cancelArmed_foldl_spec (session : Session) (ids : List DocumentId)
    (distinct : Run.Distinct session.runs) :
    ∃ registry runs,
      Registry.Edited
        (fun other entry => if other ∈ ids then entry.disarmed else entry)
        session.registry registry ∧
      Run.Kept (fun key => ¬(key.1 ∈ ids ∧ session.IsArmed key)) session.runs runs ∧
      ids.foldl (fun session id => (session.cancelArmed id).2) session =
        { session with registry, runs } := by
  induction ids generalizing session with
  | nil =>
      refine ⟨session.registry, session.runs, ?_, ?_, rfl⟩
      · exact (Registry.Edited.refl _).congr fun _ _ _ => by simp
      · exact (Run.Kept.refl distinct).congr fun _ _ => by simp
  | cons id ids induction =>
      obtain ⟨registry, runs, edited, kept, first⟩ :=
        cancelArmed_spec session distinct id
      obtain ⟨lastRegistry, lastRuns, lastEdited, lastKept, others⟩ :=
        induction { session with registry, runs } kept.distinct
      refine ⟨lastRegistry, lastRuns, (edited.trans lastEdited).congr ?_,
        (kept.trans lastKept).congr ?_, ?_⟩
      · intro other entry _
        by_cases here : other = id <;> by_cases there : other ∈ ids <;>
          simp [here, there, Entry.disarmed]
      · intro run _
        -- The first cancellation leaves the armed runs of other documents.
        by_cases here : run.key.1 = id
        · have unarmed : ¬IsArmed { session with registry, runs } run.key := by
            rw [isArmed_iff]
            rintro ⟨entry, found, armed⟩
            obtain ⟨earlier, _, rfl⟩ := edited.exists_of_find? found
            rw [if_pos here] at armed
            cases armed
          simp [here, unarmed]
        · have armedLater : IsArmed { session with registry, runs } run.key ↔
              session.IsArmed run.key := by
            simp only [IsArmed, edited.find?, if_neg here, Option.map_id']
          simp [here, armedLater]
      · rw [List.foldl_cons, first, others]

theorem release_spec (session : Session)
    (distinct : Run.Distinct session.runs)
    (tracked : session.registry.contains id) :
    ∃ registry runs metrics,
      registry.ids.Sublist session.registry.ids ∧
      (∀ other, registry.find? other =
        if other = id then none else session.registry.find? other) ∧
      Run.Kept (fun key => ¬(key.1 = id ∧ session.IsArmed key)) session.runs runs ∧
      session.release id = { session with registry, runs, metrics } := by
  obtain ⟨registry, runs, edited, kept, cancelled⟩ :=
    cancelArmed_spec session distinct id
  refine ⟨registry.erase id, runs, session.metrics.record .documentClosed,
    ?_, ?_, kept, ?_⟩
  · rw [← edited.ids]
    exact registry.ids_erase_sublist id
  · intro other
    rw [Registry.find?_erase, edited.find?]
    by_cases here : other = id <;> simp [here]
  · rw [release, if_pos tracked, cancelled]
    rfl

theorem supersede_spec (session : Session)
    (distinct : Run.Distinct session.runs) (id : DocumentId) :
    ∃ registry runs metrics,
      Registry.Edited
        (fun other entry => if other = id then entry.bumped else entry)
        session.registry registry ∧
      Run.Kept (fun key => ¬(key.1 = id ∧ session.IsArmed key)) session.runs runs ∧
      session.supersede id = { session with registry, runs, metrics } := by
  let next (entry : Entry) : Entry := { entry with generation := entry.generation + 1 }
  let bumped := session.modifyEntry id next
  have bump : Registry.Edited
      (fun other entry => if other = id then next entry else entry)
      session.registry bumped.registry :=
    Registry.edited_modify next (fun _ => rfl) session.registry id
  obtain ⟨registry, runs, disarm, kept, cancelled⟩ :=
    cancelArmed_spec bumped distinct id
  have armedBefore : ∀ key, bumped.IsArmed key ↔ session.IsArmed key := by
    intro key
    unfold IsArmed
    rw [bump.find?]
    cases session.registry.find? key.1 with
    | none => rfl
    | some entry => by_cases here : key.1 = id <;> simp [here, next]
  refine ⟨registry, runs, (session.supersede id).metrics,
    (bump.trans disarm).congr ?_, kept.congr ?_, ?_⟩
  · intro other entry _
    by_cases here : other = id <;> simp [here, next, Entry.bumped, Entry.disarmed]
  · intro run _
    rw [armedBefore]
  · unfold supersede
    dsimp only
    rw [show session.modifyEntry id _ = bumped from rfl, cancelled]
    split <;> rfl

theorem close_spec (session : Session)
    (distinct : Run.Distinct session.runs) :
    ∃ registry runs,
      Registry.Edited (fun _ => Entry.shut) session.registry registry ∧
      Run.Kept (fun key => ¬session.IsArmed key) session.runs runs ∧
      session.close = { session with registry, runs, dropped := true } := by
  obtain ⟨registry, runs, disarm, kept, cancelled⟩ :=
    cancelArmed_foldl_spec session session.registry.ids distinct
  have shutAll := Registry.edited_modifyAll
    (fun entry => { entry with state := .closed }) (fun _ => rfl) registry
  refine ⟨_, runs, (disarm.trans shutAll).congr ?_, kept.congr ?_, ?_⟩
  · intro id entry found
    rw [if_pos (Registry.mem_ids_iff.mpr ⟨entry, found⟩)]
    rfl
  · intro run _
    refine not_congr ⟨And.right, fun armed => ⟨?_, armed⟩⟩
    obtain ⟨entry, found, _⟩ := isArmed_iff.mp armed
    exact Registry.mem_ids_iff.mpr ⟨entry, found⟩
  · unfold close
    rw [cancelled]

theorem renew_spec (session : Session)
    (distinct : Run.Distinct session.runs) (id : DocumentId)
    (state : DocumentState) :
    ∃ registry runs metrics,
      Registry.Edited
        (fun other entry => if other = id then entry.renewed state else entry)
        session.registry registry ∧
      Run.Kept (fun key => ¬(key.1 = id ∧ session.IsArmed key)) session.runs runs ∧
      (session.supersede id).setState id state =
        { session with registry, runs, metrics } := by
  obtain ⟨registry, runs, metrics, edited, kept, superseded⟩ :=
    supersede_spec session distinct id
  have settled := Registry.edited_modify
    (fun entry => if entry.state = .closed then entry else { entry with state })
    (by intro entry; split <;> rfl) registry id
  refine ⟨_, runs, metrics, (edited.trans settled).congr ?_, kept, ?_⟩
  · intro other entry _
    by_cases here : other = id
    · by_cases closed : entry.state = .closed <;>
        simp [here, closed, Entry.renewed, Entry.bumped]
    · simp [here]
  · rw [superseded]
    rfl

theorem setState_setState (session : Session) (id : DocumentId)
    (first second : DocumentState) (notClosed : first ≠ .closed) :
    (session.setState id first).setState id second = session.setState id second := by
  unfold setState modifyEntry
  dsimp only
  rw [Registry.modify_modify (by intro entry; split <;> rfl)]
  congr 2
  funext entry
  by_cases closed : entry.state = .closed <;> simp [closed, notClosed]

theorem advanceState?_spec {advanced : Session} {run : Run}
    {before after : DocumentState}
    (advance : session.advanceState? run before after = some advanced) :
    ∃ entry registry,
      session.registry.find? run.id = some entry ∧
      entry.generation = run.generation ∧ entry.state = before ∧
      Registry.Edited
        (fun id entry => if id = run.id then entry.advanced before after else entry)
        session.registry registry ∧
      advanced = { session with registry } := by
  unfold advanceState? at advance
  cases found : session.registry.find? run.id with
  | none =>
      rw [found] at advance
      cases advance
  | some entry =>
      rw [found] at advance
      dsimp only at advance
      split at advance
      case isFalse => cases advance
      case isTrue current =>
        cases advance
        exact ⟨entry, _, rfl, current.1, current.2,
          Registry.edited_modify (Entry.advanced before after) (fun _ => rfl)
            session.registry run.id, rfl⟩

theorem advanceState?_getD_runs (session : Session) (run : Run)
    (before after : DocumentState) :
    ((session.advanceState? run before after).getD session).runs = session.runs := by
  cases advance : session.advanceState? run before after with
  | none => rfl
  | some advanced =>
      obtain ⟨_, _, _, _, _, _, rfl⟩ := advanceState?_spec advance
      rfl

theorem advanceState?_getD_eq (session : Session) (run : Run)
    (before after : DocumentState) :
    ∃ registry, (session.advanceState? run before after).getD session =
      { session with registry } := by
  cases advance : session.advanceState? run before after with
  | none => exact ⟨session.registry, rfl⟩
  | some advanced =>
      obtain ⟨_, registry, _, _, _, _, rfl⟩ := advanceState?_spec advance
      exact ⟨registry, rfl⟩

theorem advanceState?_eq_none_iff {run : Run} {before after : DocumentState} :
    session.advanceState? run before after = none ↔
      ∀ entry, session.registry.find? run.id = some entry →
        entry.generation = run.generation → entry.state ≠ before := by
  unfold advanceState?
  cases found : session.registry.find? run.id with
  | none => simp
  | some entry =>
      dsimp only
      split
      case isTrue current => simp [current.1, current.2]
      case isFalse other =>
        refine ⟨?_, fun _ => rfl⟩
        rintro - entry same generation state
        cases same
        exact other ⟨generation, state⟩

theorem closeDropped_spec (session : Session) (run : Run) :
    ∃ registry metrics log,
      registry.ids.Sublist session.registry.ids ∧
      (∀ other, registry.find? other =
        if other = run.id then none else session.registry.find? other) ∧
      session.closeDropped run = { session with registry, metrics, log } := by
  unfold closeDropped
  dsimp only
  split
  case isTrue tracked =>
    exact ⟨session.registry.erase run.id, _, _, session.registry.ids_erase_sublist run.id,
      Registry.find?_erase session.registry run.id, rfl⟩
  case isFalse untracked =>
    refine ⟨session.registry, _, _, .refl _, ?_, rfl⟩
    intro other
    by_cases here : other = run.id
    · rw [if_pos here, here]
      exact Option.not_isSome_iff_eq_none.mp untracked
    · rw [if_neg here]

theorem closeDropped_tracked {run : Run}
    (tracked : session.registry.contains run.id = true) :
    session.closeDropped run =
      note (count
        { session.count .discarded with registry := session.registry.erase run.id }
        .documentClosed) (.closed run.id) :=
  if_pos tracked

theorem closeDropped_untracked {run : Run}
    (untracked : ¬session.registry.contains run.id = true) :
    session.closeDropped run = session.count .discarded :=
  if_neg untracked

/-- A document that is closed leaves no trace of the state that it was moved
to before. -/
theorem closeDropped_of_advance {advanced : Session} {run : Run}
    {before after : DocumentState}
    (advance : session.advanceState? run before after = some advanced) :
    advanced.closeDropped run = session.closeDropped run := by
  unfold advanceState? at advance
  cases found : session.registry.find? run.id with
  | none =>
      rw [found] at advance
      cases advance
  | some entry =>
      rw [found] at advance
      dsimp only at advance
      split at advance
      case isFalse => cases advance
      case isTrue =>
        cases advance
        have keeps : ∀ entry : Entry, (entry.advanced before after).id = entry.id :=
          fun _ => rfl
        have tracked := Registry.contains_iff.mpr
          ⟨_, Registry.find?_modify_self keeps found⟩
        have erased := Registry.erase_modify keeps session.registry run.id
        rw [closeDropped_tracked tracked,
          closeDropped_tracked (Registry.contains_iff.mpr ⟨entry, found⟩)]
        exact congrArg (fun registry => note (count
          { session.count .discarded with registry } .documentClosed)
          (.closed run.id)) erased

end Session

end LogTint
