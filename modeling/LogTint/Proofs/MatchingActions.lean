import LogTint.Proofs.MatchingWork
import LogTint.Proofs.Moves

/-!
# Actions and sessions that match

An action of the host is carried out alike in sessions that match for a document, and it
is answered alike if it names the document.  An action that is none of the document's
business may as well not be carried out.
-/

namespace LogTint

/-- Whether an action is none of the business of a document: it names another one, or
it changes a text that is hidden from it. -/
def Action.spares (id : DocumentId) (hidden : SourceId → Bool) : Action → Bool
  | .edit other | .startNow other | .unregister other | .info other | .contains other =>
      decide (other ≠ id)
  | .replace source _ | .append source _ => hidden source
  | _ => false

namespace Session

/-- The answer that is being handed on. -/
def response (session : Session) : Answer :=
  match session.control with
  | .answer answer _ => answer
  | _ => .nothing

variable {id : DocumentId} {hidden : SourceId → Bool} {heard adopted : Bool}
  {session left right : Session}

theorem perform_edit (held : session.held = true) (id : DocumentId) (frames : List Frame) :
    session.perform (.edit id) frames = session.beginEdit id frames := by
  simp [Session.perform, held]

theorem perform_startNow (held : session.held = true) (id : DocumentId)
    (frames : List Frame) :
    session.perform (.startNow id) frames = session.beginNow false id frames := by
  simp [Session.perform, held]

theorem perform_reconfigure (held : session.held = true) (settings : Settings)
    (frames : List Frame) :
    session.perform (.reconfigure settings) frames =
      session.reconfigure settings session.registry.ids frames := by
  simp [Session.perform, held]

theorem perform_dropScheduler (distinct : Run.Distinct session.runs) (frames : List Frame) :
    (session.perform .dropScheduler frames).held = false := by
  cases held : session.held with
  | true =>
      rw [perform_of_performAtOnce? rfl rfl, held, if_pos rfl]
      unfold giveUp
      dsimp only
      split
      · obtain ⟨_, _, _, _, closed⟩ := close_spec { session with held := false } distinct
        rw [closed]
        rfl
      · rfl
  | false =>
      rw [perform_of_performAtOnce? rfl rfl, held, if_neg (by simp)]
      exact held

/-- Documents that look alike do so after the same change, made to both of them or to
none. -/
theorem map_modify {look : Source → Source} {change : Source → Source}
    (keeps : ∀ first second, look first = look second →
      look (change first) = look (change second))
    {sources others : List Source} {index : SourceId}
    (same : others[index]?.map look = sources[index]?.map look) (source : SourceId) :
    (others.modify source change)[index]?.map look =
      (sources.modify source change)[index]?.map look := by
  rw [List.getElem?_modify, List.getElem?_modify]
  cases found : sources[index]? with
  | none => simp_all
  | some document =>
      obtain ⟨other, foundThere, alike⟩ :=
        Option.map_eq_some_iff.mp (same.trans (congrArg (Option.map look) found))
      rw [foundThere]
      by_cases here : source = index
      · simp [here, keeps other document alike]
      · simp [here, alike]

/-- Documents that do nothing still do nothing after a change that leaves their actions
alone. -/
theorem quiet_modify {sources : List Source}
    (allQuiet : ∀ document ∈ sources, document.isQuiet = true) (source : SourceId)
    {change : Source → Source}
    (quiet : ∀ document, (change document).isQuiet = document.isQuiet) :
    ∀ document ∈ sources.modify source change, document.isQuiet = true := by
  intro document member
  obtain ⟨index, found⟩ := List.mem_iff_getElem?.mp member
  rw [List.getElem?_modify] at found
  obtain ⟨before, isBefore, rfl⟩ := Option.map_eq_some_iff.mp found
  have quietBefore := allQuiet before (List.mem_of_getElem? isBefore)
  by_cases here : source = index <;> simp [here, quiet, quietBefore]

theorem untouched_releaseAll {ids : List DocumentId} (others : id ∉ ids)
    (session : Session) :
    Untouched id session (ids.foldl Session.releaseAndTell session) := by
  induction ids generalizing session with
  | nil => exact .refl id session
  | cons other ids induction =>
      rw [List.mem_cons, not_or] at others
      exact (untouched_releaseAndTell (Ne.symm others.1) session).trans
        (induction others.2 _)

namespace Matches

/-! ### Sources -/

theorem modifySource (same : Matches id hidden heard adopted left right)
    (source : SourceId) {change : Source → Source}
    (quiet : ∀ document, (change document).isQuiet = document.isQuiet)
    (husks : ∀ first second, first.unscripted.husk = second.unscripted.husk →
      (change first).unscripted.husk = (change second).unscripted.husk)
    (bare : ∀ first second, first.unscripted = second.unscripted →
      (change first).unscripted = (change second).unscripted) :
    Matches id hidden heard adopted (left.modifySource source change)
      (right.modifySource source change) := by
  refine { same with
    quiet := ⟨quiet_modify same.quiet.1 source quiet, quiet_modify same.quiet.2 source quiet⟩
    husks := List.ext_getElem? fun index => ?_
    shown := fun index seen => map_modify bare (same.shown index seen) source }
  have alike := congrArg (·[index]?) same.husks
  simp only [bareSources, List.getElem?_map] at alike ⊢
  exact map_modify husks alike source

/-- Matching sessions find the same sources by anything that does not show in their
texts. -/
theorem chosen (same : Matches id hidden heard adopted left right) (source : SourceId)
    (chosen : Source → Bool)
    (blind : ∀ document, chosen document.unscripted.husk = chosen document) :
    Option.Rel (fun _ _ => True) (left.sources[source]?.filter chosen)
      (right.sources[source]?.filter chosen) := by
  have alike := congrArg (fun sources => (sources[source]?.filter chosen).isSome) same.husks
  have bare : ∀ document? : Option Source,
      ((document?.map fun document => document.unscripted.husk).filter chosen).isSome =
        (document?.filter chosen).isSome := by
    intro document?
    cases document? with
    | none => rfl
    | some document => cases here : chosen document <;> simp [Option.filter, blind, here]
  simp only [bareSources, List.getElem?_map, bare] at alike
  cases here : left.sources[source]?.filter chosen <;>
    cases there : right.sources[source]?.filter chosen
  case none.none => exact .none
  case some.some => exact .some trivial
  all_goals simp [here, there] at alike

/-- The text of a source is changed alike. -/
theorem rewriteSource (same : Matches id hidden heard adopted left right)
    (source : SourceId) (change : Buffer → Buffer) :
    Matches id hidden heard adopted (left.rewriteSource source change).2
      (right.rewriteSource source change).2 := by
  have editable := same.chosen source Source.canEdit fun _ => rfl
  have changed : Matches id hidden heard adopted
      (left.modifySource source fun document =>
        { document with buffer := change document.buffer })
      (right.modifySource source fun document =>
        { document with buffer := change document.buffer }) :=
    same.modifySource source (fun _ => rfl) (fun _ _ husks => husks) fun _ _ bare =>
      congrArg (fun document => { document with buffer := change document.buffer }) bare
  rw [Session.rewriteSource, Session.rewriteSource]
  generalize left.sources[source]?.filter Source.canEdit = found,
    right.sources[source]?.filter Source.canEdit = foundThere at editable
  cases editable with
  | none => exact same
  | some => exact changed

/-- A hidden text may be changed on one side alone. -/
theorem rewriteHidden (calm : left.Calm) {source : SourceId} (isHidden : hidden source = true)
    (change : Buffer → Buffer) :
    Matches id hidden false adopted left (left.rewriteSource source change).2 := by
  have same : Matches id hidden false adopted left left := of_calm calm
  rw [Session.rewriteSource]
  cases left.sources[source]?.filter Source.canEdit with
  | none => exact same
  | some document =>
      refine { same with
        quiet := ⟨calm.quiet, quiet_modify calm.quiet source fun _ => rfl⟩
        husks := List.ext_getElem? fun index => ?_
        shown := fun index seen => ?_ }
      · simp only [bareSources, Session.modifySource, List.getElem?_map,
          List.getElem?_modify]
        cases left.sources[index]? with
        | none => rfl
        | some other =>
            by_cases here : source = index
            · simp [here, Source.unscripted, Source.husk]
            · simp [here]
      · have elsewhere : source ≠ index := by
          rintro rfl
          cases isHidden.symm.trans seen
        simp [Session.modifySource, elsewhere]

/-- A source is given up alike. -/
theorem releaseSource (same : Matches id hidden heard adopted left right)
    (source : SourceId) :
    Matches id hidden heard adopted (left.releaseSource source).2
      (right.releaseSource source).2 := by
  have holding := same.chosen source Source.held fun _ => rfl
  have changed : Matches id hidden heard adopted
      (left.modifySource source fun document => { document with held := false })
      (right.modifySource source fun document => { document with held := false }) :=
    same.modifySource source (fun _ => rfl)
      (fun _ _ husks => congrArg (fun document => { document with held := false }) husks)
      fun _ _ bare => congrArg (fun document => { document with held := false }) bare
  rw [Session.releaseSource, Session.releaseSource]
  generalize left.sources[source]?.filter (·.held) = found,
    right.sources[source]?.filter (·.held) = foundThere at holding
  cases holding with
  | none => exact same
  | some => exact changed

/-- A document is registered alike, under the same number. -/
theorem register (same : Matches id hidden heard adopted left right)
    (source : SourceId) :
    Matches id hidden heard adopted (left.register source).2
      (right.register source).2 := by
  have holding := same.chosen source Source.held fun _ => rfl
  rw [Session.register, Session.register]
  generalize left.sources[source]?.filter (·.held) = found,
    right.sources[source]?.filter (·.held) = foundThere at holding
  cases holding with
  | none => exact same
  | some =>
      have numbered : ∀ {session : Session}, session.Numbered →
          ((session.registry.add ⟨⟨session.nextId⟩, source, .idle, 0, none⟩).ids.Nodup ∧
            ∀ id ∈ (session.registry.add ⟨⟨session.nextId⟩, source, .idle, 0, none⟩).ids,
              id.number < session.nextId + 1) := by
        intro session numbered
        rw [Registry.ids_add]
        constructor
        · apply numbered.1.append (List.nodup_singleton _)
          intro id member added
          cases List.mem_singleton.mp added
          exact Nat.lt_irrefl _ (numbered.2 _ member)
        · intro id member
          rcases List.mem_append.mp member with earlier | added
          · exact Nat.lt_succ_of_lt (numbered.2 id earlier)
          · cases List.mem_singleton.mp added
            exact Nat.lt_succ_self _
      exact { same with
        nextId := congrArg (· + 1) same.nextId
        entry := by
          dsimp only [Session.count]
          rw [Registry.find?_add, Registry.find?_add, same.entry, same.nextId]
        numbered := ⟨numbered same.numbered.1, numbered same.numbered.2⟩ }

/-! ### Documents that are let go -/

theorem releaseAndTell (same : Matches id hidden heard adopted left right) :
    Matches id hidden heard adopted (left.releaseAndTell id) (right.releaseAndTell id) :=
  same.release.note _

theorem releaseAll_of_mem (same : Matches id hidden false adopted left right)
    {ids : List DocumentId} (distinct : ids.Nodup) (member : id ∈ ids) :
    Matches id hidden false adopted (ids.foldl Session.releaseAndTell left)
      (right.releaseAndTell id) := by
  obtain ⟨before, after, rfl⟩ := List.append_of_mem member
  have others : id ∉ before ++ after := (List.nodup_cons.mp (List.nodup_middle.mp distinct)).1
  rw [List.mem_append, not_or] at others
  rw [List.foldl_append, List.foldl_cons]
  exact (same.untouched (untouched_releaseAll others.1 left)).releaseAndTell.untouched
    (untouched_releaseAll others.2 _)

/-- The documents that are let go matter only as far as the document is among them. -/
theorem releaseAll (same : Matches id hidden false adopted left right)
    {ids idsThere : List DocumentId} (distinct : ids.Nodup) (distinctThere : idsThere.Nodup)
    (members : id ∈ idsThere ↔ id ∈ ids) :
    Matches id hidden false adopted (ids.foldl Session.releaseAndTell left)
      (idsThere.foldl Session.releaseAndTell right) := by
  by_cases here : id ∈ ids
  · have released : Matches id hidden false adopted
        (idsThere.foldl Session.releaseAndTell right) (right.releaseAndTell id) :=
      (of_calm same.calmThere).releaseAll_of_mem distinctThere (members.mpr here)
    exact (same.releaseAll_of_mem distinct here).trans released.symm
  · exact (same.untouched (untouched_releaseAll here left)).untouchedThere
      (untouched_releaseAll (mt members.mp here) right)

theorem mem_ids_iff (same : Matches id hidden heard adopted left right) :
    id ∈ right.registry.ids ↔ id ∈ left.registry.ids := by
  rw [Registry.mem_ids_iff, Registry.mem_ids_iff, same.entry]

theorem mem_droppedIds_iff (same : Matches id hidden heard adopted left right) :
    id ∈ right.droppedIds ↔ id ∈ left.droppedIds := by
  cases found : left.registry.find? id with
  | none =>
      have absent : ∀ {session : Session}, session.registry.find? id = none →
          id ∉ session.droppedIds := by
        intro session absent dropped
        obtain ⟨entry, found⟩ :=
          Registry.mem_ids_iff.mp (session.droppedIds_sublist.subset dropped)
        cases absent.symm.trans found
      exact iff_of_false (absent (same.entry.trans found)) (absent found)
  | some entry =>
      rw [Session.mem_droppedIds_iff same.numbered.1.1 found,
        Session.mem_droppedIds_iff same.numbered.2.1 (same.entry.trans found), same.isAlive]

theorem sweep (same : Matches id hidden heard adopted left right) :
    Matches id hidden false adopted left.sweep.2 right.sweep.2 :=
  same.unheard.releaseAll (left.droppedIds_sublist.nodup same.numbered.1.1)
    (right.droppedIds_sublist.nodup same.numbered.2.1) same.mem_droppedIds_iff

theorem shutdown (same : Matches id hidden heard adopted left right) :
    Matches id hidden false adopted left.shutdown.2 right.shutdown.2 := by
  rw [shutdown_eq, shutdown_eq]
  exact same.unheard.releaseAll same.numbered.1.1 same.numbered.2.1 same.mem_ids_iff

theorem unregister (same : Matches id hidden heard adopted left right) :
    (right.unregister id).1 = (left.unregister id).1 ∧
      Matches id hidden heard adopted (left.unregister id).2 (right.unregister id).2 := by
  rw [Session.unregister, Session.unregister, Registry.contains, Registry.contains,
    same.entry]
  split
  · exact ⟨rfl, same.releaseAndTell⟩
  · exact ⟨rfl, same⟩

/-! ### Carrying out an action -/

/-- An action that is the document's business is carried out alike, and answered alike if
it names the document. -/
theorem perform (same : Matches id hidden heard true left right) {action : Action}
    (concerns : action.spares id hidden = false) (keeps : action ≠ .dropScheduler)
    (settled : ∀ settings, action ≠ .reconfigure settings)
    (seen : ∀ entry, left.registry.find? id = some entry → hidden entry.source = false)
    (frames framesThere : List Frame) :
    Matches id hidden false true (left.perform action frames)
        (right.perform action framesThere) ∧
      (action.document? = some id →
        (right.perform action framesThere).response = (left.perform action frames).response) := by
  have atOnce : ∀ {answer answerThere : Answer} {after afterThere : Session},
      left.performAtOnce? action = some (answer, after) →
      right.performAtOnce? action = some (answerThere, afterThere) →
      Matches id hidden false true after afterThere →
      (action.document? = some id → answerThere = answer) →
      Matches id hidden false true (left.perform action frames)
          (right.perform action framesThere) ∧
        (action.document? = some id → (right.perform action framesThere).response =
          (left.perform action frames).response) := by
    intro answer answerThere after afterThere here there matches_ answers
    rw [perform_of_performAtOnce? (by simp [same.held.1]) here,
      perform_of_performAtOnce? (by simp [same.held.2]) there]
    exact ⟨matches_.answering _ _ _ _, answers⟩
  cases action with
  | replace source text =>
      exact atOnce rfl rfl (same.rewriteSource source (·.replace text)).unheard nofun
  | append source text =>
      exact atOnce rfl rfl (same.rewriteSource source (·.append text)).unheard nofun
  | release source => exact atOnce rfl rfl (same.releaseSource source).unheard nofun
  | register source => exact atOnce rfl rfl (same.register source).unheard nofun
  | sweep => exact atOnce rfl rfl same.sweep nofun
  | shutdown => exact atOnce rfl rfl same.shutdown nofun
  | settings => exact atOnce rfl rfl same.unheard nofun
  | describe => exact atOnce rfl rfl same.unheard nofun
  | clearCache =>
      have cleared : ∀ {session : Session} (cache : Cache),
          session.cache.map Cache.clear = some cache → cache.Sound := by
        intro session cache is
        obtain ⟨before, _, rfl⟩ := Option.map_eq_some_iff.mp is
        exact Cache.clear_sound before
      exact atOnce rfl rfl { same.unheard with sound := ⟨cleared, cleared⟩ } nofun
  | unregister other =>
      obtain rfl : other = id := by simpa [Action.spares] using concerns
      exact atOnce rfl rfl same.unregister.2.unheard fun _ => same.unregister.1
  | info other =>
      obtain rfl : other = id := by simpa [Action.spares] using concerns
      exact atOnce rfl rfl same.unheard fun _ => by rw [same.entry]
  | contains other =>
      obtain rfl : other = id := by simpa [Action.spares] using concerns
      exact atOnce rfl rfl same.unheard fun _ => by
        rw [Registry.contains, same.entry, Registry.contains]
  | edit other =>
      obtain rfl : other = id := by simpa [Action.spares] using concerns
      obtain ⟨answer, edited, editedThere, here, there, matches_⟩ :=
        same.beginEdit seen frames framesThere
      rw [perform_edit same.held.1, perform_edit same.held.2, here, there]
      exact ⟨matches_.unheard.answering _ _ _ _, fun _ => rfl⟩
  | startNow other =>
      obtain rfl : other = id := by simpa [Action.spares] using concerns
      rw [perform_startNow same.held.1, perform_startNow same.held.2, response, response,
        beginNow_control same.quiet.1, beginNow_control same.quiet.2]
      exact ⟨(same.beginNow seen false frames framesThere).unheard, fun _ => rfl⟩
  | reconfigure settings => exact absurd rfl (settled settings)
  | dropScheduler => exact absurd rfl keeps

/-- An action that is none of the document's business changes nothing for it. -/
theorem perform_spared (calm : left.Calm) {action : Action}
    (spares : action.spares id hidden = true) (frames : List Frame) :
    Matches id hidden false adopted left (left.perform action frames) := by
  have available : (action.needsScheduler && !left.held) = false := by simp [calm.held]
  cases action with
  | edit other =>
      have different : other ≠ id := of_decide_eq_true spares
      rw [perform_edit calm.held]
      exact of_untouched (untouched_beginEdit different calm frames) calm
  | startNow other =>
      have different : other ≠ id := of_decide_eq_true spares
      rw [perform_startNow calm.held]
      exact of_untouched (untouched_beginNow different calm false frames) calm
  | unregister other =>
      have different : other ≠ id := of_decide_eq_true spares
      have released : Untouched id left (left.unregister other).2 := by
        unfold Session.unregister
        split
        · exact untouched_releaseAndTell different left
        · exact .refl id left
      rw [perform_of_performAtOnce? available rfl]
      exact of_untouched (released.trans (untouched_answering id _ _ frames)) calm
  | info other | contains other =>
      rw [perform_of_performAtOnce? available rfl]
      exact of_untouched (untouched_answering id left _ frames) calm
  | replace source text | append source text =>
      rw [perform_of_performAtOnce? available rfl]
      exact { rewriteHidden calm spares _ with }
  | _ => cases spares

end Matches

/-! ### What is left to do -/

/-- An action is answered at once, unless it edits documents one after the other. -/
theorem perform_control (quiet : ∀ source ∈ session.sources, source.isQuiet = true)
    (held : session.held = true) {action : Action}
    (settled : ∀ settings, action ≠ .reconfigure settings) (frames : List Frame) :
    ∃ answer, (session.perform action frames).control = .answer answer frames ∨
      (session.perform action frames).control = .answer answer (.call :: frames) := by
  have available : (action.needsScheduler && !session.held) = false := by simp [held]
  cases action with
  | edit id =>
      obtain ⟨answer, answers⟩ := beginEdit_control quiet id frames
      rw [perform_edit held]
      exact ⟨answer, .inr answers⟩
  | startNow id =>
      rw [perform_startNow held]
      exact ⟨_, .inl (beginNow_control quiet false id frames)⟩
  | reconfigure settings => exact absurd rfl (settled settings)
  | _ =>
      rw [perform_of_performAtOnce? available rfl]
      exact ⟨_, .inl rfl⟩

end Session

end LogTint
