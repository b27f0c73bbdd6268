import LogTint.Proofs.StillEdits

/-!
# Actions that are carried out at once

Every action but an edit, a call and a change of settings is carried out at
once.  At rest, each changes the strand of every document as `Strand.perform`
says.
-/

namespace LogTint

namespace Session

variable {documents : DocumentId → Option Tracked} {calls : Nat}
  {session middle final : Session} {id : DocumentId} {tracked : Tracked}

/-- The strand of the document that was changed, and those of the others. -/
theorem Turns.strand {new? : Option Tracked} {news : List Event}
    (turns : session.Turns id new? news final)
    (about : ∀ event ∈ news, ∀ other, event.isAbout other = decide (id = other))
    (documents : DocumentId → Option Tracked) (other : DocumentId) :
    final.strand (Function.update documents id new?) other =
      if other = id then
        { session.strand documents id with
          tracked? := new?
          events := (session.strand documents id).events ++ news.map (session.clock, ·) }
      else session.strand documents other := by
  have filtered : (news.map (session.clock, ·)).filter (·.2.isAbout other) =
      if other = id then news.map (session.clock, ·) else [] := by
    by_cases here : other = id
    · rw [if_pos here, List.filter_eq_self]
      intro event member
      obtain ⟨told, toldMember, rfl⟩ := List.mem_map.mp member
      simp [about told toldMember, here]
    · rw [if_neg here, List.filter_eq_nil_iff]
      intro event member
      obtain ⟨told, toldMember, rfl⟩ := List.mem_map.mp member
      simp [about told toldMember, Ne.symm here]
  unfold Session.strand
  rw [turns.clock, turns.sources, turns.settings, turns.nextId, turns.held, turns.log,
    List.filter_append, filtered]
  by_cases here : other = id
  · subst here
    simp
  · simp [here]

/-- From rest to rest, every strand is changed in the same way. -/
def Acts (change : Strand → Strand) (documents : DocumentId → Option Tracked)
    (session final : Session) : Prop :=
  ∃ after, final.Shows after 0 ∧ Asleep after ∧
    (∀ id, final.strand after id = change (session.strand documents id)) ∧
    final.notices = session.notices

namespace Acts

variable {first second : Strand → Strand}

theorem congr (acts : Acts first documents session final)
    (same : ∀ id, first (session.strand documents id) =
      second (session.strand documents id)) :
    Acts second documents session final := by
  obtain ⟨after, shows, asleep, strands, notices⟩ := acts
  exact ⟨after, shows, asleep, fun id => (strands id).trans (same id), notices⟩

end Acts

namespace Shows

theorem acts_refl (shows : session.Shows documents 0) (asleep : Asleep documents) :
    Acts (fun strand => strand) documents session session :=
  ⟨documents, shows, asleep, fun _ => rfl, rfl⟩

theorem acts_clearCache (shows : session.Shows documents 0) (asleep : Asleep documents) :
    Acts (fun strand => strand) documents session
      { session with cache := session.cache.map Cache.clear } := by
  refine ⟨documents, { shows with sound := ?_ }, asleep, fun _ => rfl, rfl⟩
  intro cache isCache
  obtain ⟨before, _, rfl⟩ := Option.map_eq_some_iff.mp isCache
  exact before.clear_sound

/-- A document of the host is changed. -/
theorem acts_modifySource (shows : session.Shows documents 0)
    (asleep : Asleep documents) (source : SourceId) (change : Source → Source)
    (unscripted : ∀ document, (change document).unscripted = change document.unscripted)
    (quiet : ∀ document, (change document).isQuiet = document.isQuiet) :
    Acts (·.modifySource source change) documents session
      (session.modifySource source change) := by
  refine ⟨documents, shows.withSources (by simp) ?_, asleep, fun id => ?_, rfl⟩
  · intro document member
    obtain ⟨index, at_⟩ := List.mem_iff_getElem?.mp member
    rw [List.getElem?_modify] at at_
    obtain ⟨before, isBefore, rfl⟩ := Option.map_eq_some_iff.mp at_
    have quietBefore := shows.quiet before (List.mem_of_getElem? isBefore)
    by_cases here : source = index <;> simp [here, quiet, quietBefore]
  · have same : (session.sources.modify source change).map Source.unscripted =
        (session.sources.map Source.unscripted).modify source change := by
      apply List.ext_getElem?
      intro index
      by_cases here : source = index
      · subst here
        simp [Function.comp_def, unscripted]
      · simp [here]
    dsimp only [Session.strand, Strand.modifySource, Session.modifySource]
    rw [same]

theorem acts_rewriteSource (shows : session.Shows documents 0)
    (asleep : Asleep documents) (source : SourceId) (change : Buffer → Buffer) :
    Acts (·.rewrite source change) documents session
      (session.rewriteSource source change).2 := by
  have found (id : DocumentId) :=
    session.strand_filter documents id source Source.unscripted_canEdit
  unfold rewriteSource
  cases editable : session.sources[source]?.filter Source.canEdit with
  | none =>
      refine (shows.acts_refl asleep).congr fun id => ?_
      rw [Strand.rewrite, found, editable]
      rfl
  | some document =>
      refine (shows.acts_modifySource asleep source
        (fun document => { document with buffer := change document.buffer })
        (fun _ => rfl) (fun _ => rfl)).congr fun id => ?_
      rw [Strand.rewrite, found, editable]
      rfl

theorem acts_releaseSource (shows : session.Shows documents 0)
    (asleep : Asleep documents) (source : SourceId) :
    Acts (·.release source) documents session (session.releaseSource source).2 := by
  have found (id : DocumentId) :=
    session.strand_filter documents id source Source.unscripted_held
  unfold releaseSource
  cases holding : session.sources[source]?.filter (·.held) with
  | none =>
      refine (shows.acts_refl asleep).congr fun id => ?_
      rw [Strand.release, found, holding]
      rfl
  | some document =>
      refine (shows.acts_modifySource asleep source
        (fun document => { document with held := false })
        (fun _ => rfl) (fun _ => rfl)).congr fun id => ?_
      rw [Strand.release, found, holding]
      rfl

/-- A document is released and the host is told. -/
theorem acts_releaseAndTell (shows : session.Shows documents 0)
    (asleep : Asleep documents) (known : documents id = some tracked) :
    Acts (fun strand => if strand.id = id then strand.drop else strand) documents session
      (session.releaseAndTell id) := by
  obtain ⟨registry, runs, metrics, released, turns⟩ :=
    shows.release known (asleep id tracked known)
  have turned : session.Turns id none [.closed id]
      ({ session with registry, runs, metrics }.note (.closed id)) :=
    ⟨turns.ids, turns.entries, turns.runs, rfl, rfl, shows.quiet, rfl, rfl, rfl, rfl, rfl⟩
  rw [releaseAndTell, released]
  refine ⟨Function.update documents id none,
    shows.turn turned nofun ?_ shows.sound, ?_, fun other => ?_, rfl⟩
  · intro others counted
    rw [shows.own_calls_of_dormant (asleep id)] at counted
    exact counted
  · intro other left isLeft
    by_cases here : other = id
    · rw [here, Function.update_self] at isLeft
      cases isLeft
    · rw [Function.update_of_ne here] at isLeft
      exact asleep other left isLeft
  · rw [turned.strand (by simp [Event.isAbout])]
    by_cases here : other = id
    · rw [if_pos here]
      dsimp only
      rw [if_pos (show (session.strand documents other).id = id from here), here]
      rfl
    · rw [if_neg here]
      dsimp only
      rw [if_neg (show (session.strand documents other).id ≠ id from here)]

/-- Some documents are released one by one. -/
theorem acts_releaseAll (ids : List DocumentId) (shows : session.Shows documents 0)
    (asleep : Asleep documents) (distinct : ids.Nodup)
    (known : ∀ id ∈ ids, (documents id).isSome = true) :
    Acts (fun strand => if strand.id ∈ ids then strand.drop else strand) documents session
      (ids.foldl releaseAndTell session) := by
  induction ids generalizing session documents with
  | nil => exact (shows.acts_refl asleep).congr fun id => by simp
  | cons id ids induction =>
      obtain ⟨fresh, distinct⟩ := List.nodup_cons.mp distinct
      obtain ⟨tracked, knownHere⟩ :=
        Option.isSome_iff_exists.mp (known id List.mem_cons_self)
      have first := shows.acts_releaseAndTell asleep knownHere
      rw [List.foldl_cons]
      have stays : ∀ after, (∀ other, (session.releaseAndTell id).strand after other =
          if (session.strand documents other).id = id then
            (session.strand documents other).drop
          else session.strand documents other) →
          ∀ other ∈ ids, (after other).isSome = true := by
        intro after strands other member
        have different : other ≠ id := by
          rintro rfl
          exact fresh member
        have same := strands other
        rw [if_neg (show (session.strand documents other).id ≠ id from different)] at same
        have tracked := congrArg Strand.tracked? same
        rw [show after other = documents other from tracked]
        exact known other (List.mem_cons_of_mem _ member)
      obtain ⟨between, showsBetween, asleepBetween, strands, notices⟩ := first
      obtain ⟨after, showsAfter, asleepAfter, strandsAfter, noticesAfter⟩ :=
        induction showsBetween asleepBetween distinct (stays between strands)
      refine ⟨after, showsAfter, asleepAfter, fun other => ?_, noticesAfter.trans notices⟩
      have here : (session.strand documents other).id = other := rfl
      rw [strandsAfter, strands]
      dsimp only
      rw [here]
      by_cases first : other = id
      · subst first
        rw [if_pos rfl, if_neg (by exact fresh), if_pos (List.mem_cons_self ..)]
      · simp [first, here]

theorem acts_unregister (shows : session.Shows documents 0) (asleep : Asleep documents)
    (id : DocumentId) :
    Acts (fun strand => if id = strand.id then strand.unregister else strand) documents
      session (session.unregister id).2 := by
  have here (other : DocumentId) : (session.strand documents other).id = other := rfl
  have trackedHere (other : DocumentId) :
      (session.strand documents other).tracked? = documents other := rfl
  rw [unregister, shows.contains]
  cases known : documents id with
  | none =>
      refine (shows.acts_refl asleep).congr fun other => ?_
      rw [here]
      by_cases same : id = other
      · rw [if_pos same, Strand.unregister, trackedHere, ← same, known]
      · rw [if_neg same]
  | some tracked =>
      refine (shows.acts_releaseAndTell asleep known).congr fun other => ?_
      rw [here]
      by_cases same : id = other
      · rw [if_pos same.symm, if_pos same, Strand.unregister, trackedHere, ← same, known]
      · rw [if_neg (Ne.symm same), if_neg same]

theorem acts_shutdown (shows : session.Shows documents 0) (asleep : Asleep documents) :
    Acts Strand.unregister documents session session.shutdown.2 := by
  rw [shutdown_eq]
  refine (shows.acts_releaseAll _ asleep shows.ids fun id => (shows.mem_ids_iff id).mp).congr
    fun id => ?_
  have member := shows.mem_ids_iff id
  rw [Strand.unregister, show (session.strand documents id).id = id from rfl,
    show (session.strand documents id).tracked? = documents id from rfl]
  cases tracked? : documents id with
  | none => rw [if_neg (by simp [member, tracked?])]
  | some tracked => rw [if_pos (by simp [member, tracked?])]

theorem acts_sweep (shows : session.Shows documents 0) (asleep : Asleep documents) :
    Acts Strand.sweep documents session session.sweep.2 := by
  have distinct : session.droppedIds.Nodup :=
    shows.ids.sublist session.droppedIds_sublist
  have subset : ∀ id ∈ session.droppedIds, (documents id).isSome = true := by
    intro id member
    exact (shows.mem_ids_iff id).mp (session.droppedIds_sublist.subset member)
  refine (shows.acts_releaseAll _ asleep distinct subset).congr fun id => ?_
  rw [Strand.sweep, show (session.strand documents id).id = id from rfl,
    show (session.strand documents id).tracked? = documents id from rfl]
  cases known : documents id with
  | none =>
      rw [if_neg]
      intro member
      have some_ := subset id member
      rw [known] at some_
      cases some_
  | some tracked =>
      have swept := mem_droppedIds_iff shows.ids (shows.find?_entry known)
      dsimp only
      rw [strand_living?]
      rw [show (tracked.entry session.held id).source = tracked.source from rfl,
        isAlive_eq] at swept
      cases living : session.sources[tracked.source]?.filter Source.isAlive with
      | none => rw [if_pos (swept.mpr (by rw [living]; rfl))]; rfl
      | some document =>
          rw [if_neg]
          · rfl
          · intro member
            have gone := swept.mp member
            rw [living] at gone
            cases gone

/-- The document with the next number is tracked. -/
theorem add (shows : session.Shows documents calls) (held : session.held = true)
    {source : SourceId} (present : source < session.sources.length) (metrics : Metrics) :
    { session with
        nextId := session.nextId + 1
        registry := session.registry.add ⟨⟨session.nextId⟩, source, .idle, 0, none⟩
        metrics }.Shows
      (Function.update documents ⟨session.nextId⟩ (some ⟨source, 0, none⟩)) calls := by
  have fresh : documents ⟨session.nextId⟩ = none := by
    cases known : documents ⟨session.nextId⟩ with
    | none => rfl
    | some tracked => exact absurd (shows.known known).1 (Nat.lt_irrefl _)
  constructor
  case ids =>
    rw [Registry.ids_add, List.nodup_append]
    refine ⟨shows.ids, by simp, ?_⟩
    intro id member other new same
    rw [List.mem_singleton.mp new] at same
    rw [same, Registry.mem_ids_iff, shows.entries, fresh] at member
    obtain ⟨_, impossible⟩ := member
    cases impossible
  case entries =>
    intro id
    dsimp only
    rw [Registry.find?_add, shows.entries]
    by_cases here : id = ⟨session.nextId⟩
    · rw [here, fresh, Function.update_self]
      simp [Tracked.entry, Tracked.state, Tracked.armed?, held]
    · rw [Function.update_of_ne here, if_neg (Ne.symm here), Option.or_none]
  case solitary => exact shows.solitary
  case runs =>
    intro run
    by_cases here : run.id = ⟨session.nextId⟩
    · rw [here, Function.update_self]
      simp only [Option.bind_some, Tracked.run?, Option.map_none, reduceCtorEq, iff_false]
      intro member
      obtain ⟨tracked, _, known, _⟩ := shows.exists_work member
      rw [here, fresh] at known
      cases known
    · rw [Function.update_of_ne here]
      exact shows.runs run
  case known =>
    intro id tracked known
    dsimp only
    by_cases here : id = ⟨session.nextId⟩
    · rw [here, Function.update_self] at known
      cases known
      exact ⟨by rw [here]; exact Nat.lt_succ_self _, present⟩
    · rw [Function.update_of_ne here] at known
      exact ⟨Nat.lt_succ_of_lt (shows.known known).1, (shows.known known).2⟩
  case working =>
    intro id tracked work known underWay
    by_cases here : id = ⟨session.nextId⟩
    · rw [here, Function.update_self] at known
      cases known
      cases underWay
    · rw [Function.update_of_ne here] at known
      exact shows.working known underWay
  case quiet => exact shows.quiet
  case sound => exact shows.sound
  case debounce => exact shows.debounce
  case dropped => exact shows.dropped
  case calls => exact shows.calls

theorem acts_register (shows : session.Shows documents 0) (asleep : Asleep documents)
    (held : session.held = true) (source : SourceId) :
    Acts (·.register source) documents session (session.register source).2 := by
  have found (id : DocumentId) :=
    session.strand_filter documents id source Source.unscripted_held
  cases holding : session.sources[source]?.filter (·.held) with
  | none =>
      rw [Session.register, holding]
      refine (shows.acts_refl asleep).congr fun id => ?_
      rw [Strand.register, found, holding]
      rfl
  | some document =>
      have present := (Option.filter_eq_some_iff.mp holding).1
      have added := shows.add held (List.getElem?_eq_some_iff.mp present).1
        (session.metrics.record .documentRegistered)
      rw [Session.register, holding]
      refine ⟨_, added, ?_, fun id => ?_, rfl⟩
      · intro id tracked known
        by_cases here : id = ⟨session.nextId⟩
        · rw [here, Function.update_self] at known
          cases known
          exact nofun
        · rw [Function.update_of_ne here] at known
          exact asleep id tracked known
      · show _ = (session.strand documents id).register source
        rw [Strand.register, found, holding]
        by_cases here : id = ⟨session.nextId⟩
        · subst here
          simp [strand, count]
        · simp [strand, count, here]

/-- Nothing is under way for the documents of a scheduler that is gone. -/
theorem rested_of_released (shows : session.Shows documents calls)
    (released : session.held = false) (id : DocumentId) :
    (documents id).map Tracked.rested = documents id := by
  cases known : documents id with
  | none => rfl
  | some tracked =>
      cases underWay : tracked.work? with
      | none =>
          obtain ⟨source, generation, work?⟩ := tracked
          cases underWay
          rfl
      | some work =>
          have held := (shows.working known underWay).1
          rw [released] at held
          cases held

/-- Timers keep no call in progress. -/
theorem calls_of_asleep (shows : session.Shows documents calls)
    (asleep : Asleep documents) : session.calls = calls := by
  have none : (session.runs.map (·.origin.calls)).sum = 0 := by
    rw [List.sum_eq_zero_iff_forall_eq_nat]
    intro count member
    obtain ⟨run, runMember, rfl⟩ := List.mem_map.mp member
    have timer := (shows.fits runMember).timer (shows.isSleeping_of_asleep asleep runMember)
    simp [show run.origin = .timer from timer.1, Origin.calls]
  rw [shows.calls, none, Nat.add_zero]

/-- The scheduler goes and cancels every timer. -/
theorem close (shows : session.Shows documents 0) (asleep : Asleep documents) :
    ∃ registry,
      { session with held := false }.close =
        { session with held := false, registry, runs := [], dropped := true } ∧
      { session with held := false, registry, runs := [], dropped := true }.Shows
        (fun id => (documents id).map Tracked.rested) 0 := by
  obtain ⟨registry, runs, edited, kept, closed⟩ :=
    close_spec { session with held := false } shows.distinct
  have noRuns : runs = [] := by
    rw [List.eq_nil_iff_forall_not_mem]
    intro run member
    obtain ⟨earlier, earlierMember, keeps, _⟩ := kept.origin run member
    obtain ⟨tracked, work, known, _⟩ := shows.exists_work earlierMember
    exact keeps (shows.isArmed_of_dormant known (asleep _ _ known) earlierMember rfl)
  rw [noRuns] at closed
  refine ⟨registry, closed, ?_⟩
  have rested : ∀ {id tracked}, (documents id).map Tracked.rested = some tracked →
      tracked.work? = none ∧ ∃ before, documents id = some before ∧
        tracked.source = before.source := by
    intro id tracked known
    obtain ⟨before, knownBefore, rfl⟩ := Option.map_eq_some_iff.mp known
    exact ⟨rfl, before, knownBefore, rfl⟩
  constructor
  case ids => rw [edited.ids]; exact shows.ids
  case entries =>
    intro id
    dsimp only
    rw [edited.find?, shows.entries, Option.map_map, Option.map_map]
    congr 1
  case solitary => exact List.nodup_nil
  case runs =>
    intro run
    cases documents run.id <;> simp [Tracked.run?, Tracked.rested]
  case known =>
    intro id tracked known
    obtain ⟨_, before, knownBefore, source⟩ := rested known
    rw [source]
    exact shows.known knownBefore
  case working =>
    intro id tracked work known underWay
    rw [(rested known).1] at underWay
    cases underWay
  case quiet => exact shows.quiet
  case sound => exact shows.sound
  case debounce => exact shows.debounce
  case dropped => rfl
  case calls => exact shows.calls_of_asleep asleep

/-- The scheduler goes with the host at rest. -/
theorem acts_dropScheduler (shows : session.Shows documents 0) (asleep : Asleep documents) :
    Acts (fun strand => { strand with
      held := false, tracked? := strand.tracked?.map Tracked.rested }) documents session
      (if session.held then session.giveUp else session) := by
  cases held : session.held with
  | false =>
      refine (shows.acts_refl asleep).congr fun id => ?_
      have rested := shows.rested_of_released held id
      dsimp only [strand]
      rw [rested, held]
  | true =>
      obtain ⟨registry, closed, showsAfter⟩ := shows.close asleep
      have gone : session.giveUp = { session with held := false }.close := by
        apply if_pos
        simp [shows.calls_of_asleep asleep, shows.dropped, held]
      rw [if_pos rfl, gone, closed]
      refine ⟨_, showsAfter, ?_, fun _ => rfl, rfl⟩
      intro id tracked known
      obtain ⟨before, _, rfl⟩ := Option.map_eq_some_iff.mp known
      exact nofun

end Shows

end Session

end LogTint
