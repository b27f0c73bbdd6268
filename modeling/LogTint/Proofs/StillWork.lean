import LogTint.Proofs.Stillness

/-!
# How the runs of still documents go on

A run that is due finds no lock in its way and its edit still the latest, so it
either begins to compute or ends.  Either way only its own document changes, and
as its strand says.
-/

namespace LogTint

/-- Reading a document that does not act leaves it as it was. -/
theorem Source.reread {sources : List Source} {index : Nat} {document reading : Source}
    (found : sources[index]? = some document)
    (allQuiet : ∀ source ∈ sources, source.isQuiet = true)
    (same : reading.endReading.unscripted = document.unscripted)
    (quiet : reading.endReading.isQuiet = true) :
    ((sources.modify index fun _ => reading).modify index endReading).map unscripted =
        sources.map unscripted ∧
      ∀ source ∈ (sources.modify index fun _ => reading).modify index endReading,
        source.isQuiet = true := by
  constructor
  · apply List.ext_getElem?
    intro other
    by_cases here : index = other
    · subst here
      simp [found, same]
    · simp [here]
  · intro source member
    obtain ⟨other, at_⟩ := List.mem_iff_getElem?.mp member
    by_cases here : index = other
    · subst here
      have same : reading.endReading = source := by simpa [found] using at_
      rw [← same]
      exact quiet
    · have same : sources[other]? = some source := by simpa [here] using at_
      exact allQuiet source (List.mem_of_getElem? same)

namespace Session

variable {documents : DocumentId → Option Tracked} {calls : Nat}
  {session final : Session} {id : DocumentId} {tracked : Tracked} {work : Work}

/-- The strand of a document in a session that shows the given documents. -/
def strand (session : Session) (documents : DocumentId → Option Tracked)
    (id : DocumentId) : Strand :=
  { id
    clock := session.clock
    sources := session.sources.map Source.unscripted
    settings := session.settings
    nextId := session.nextId
    held := session.held
    tracked? := documents id
    events := session.log.filter (·.2.isAbout id) }

/-- The strand finds the sources of the session. -/
theorem strand_filter (session : Session) (documents : DocumentId → Option Tracked)
    (id : DocumentId) (source : SourceId) {chosen : Source → Bool}
    (same : ∀ document, chosen document.unscripted = chosen document) :
    (session.strand documents id).sources[source]?.filter chosen =
      (session.sources[source]?.filter chosen).map Source.unscripted := by
  simp only [strand, List.getElem?_map]
  cases session.sources[source]? with
  | none => rfl
  | some document => cases here : chosen document <;> simp [Option.filter, here, same]

theorem strand_living? (session : Session) (documents : DocumentId → Option Tracked)
    (id : DocumentId) (source : SourceId) :
    (session.strand documents id).living? source =
      (session.sources[source]?.filter Source.isAlive).map Source.unscripted :=
  session.strand_filter documents id source fun _ => rfl

theorem filter_isAlive_eq_some {source : SourceId} {document : Source}
    (living : session.sources[source]?.filter Source.isAlive = some document) :
    session.sources[source]? = some document ∧ document.isAlive = true :=
  Option.filter_eq_some_iff.mp living

/-- The scheduler does not go with a call when it has gone with the host. -/
theorem endCall_of_dropped (dropped : session.dropped = !session.held) :
    session.endCall = { session with calls := session.calls - 1 } := by
  apply if_neg
  simp [dropped]

theorem reply_of_dropped (dropped : session.dropped = !session.held)
    (origin : Origin) (id : DocumentId) (result : Answer) :
    session.reply origin id result =
      { session with
        calls := session.calls - origin.calls
        answer := if origin = .call true then result else session.answer
        log := session.log ++
          if origin = .call false then [(session.clock, .returned id result)]
          else [] } := by
  match origin with
  | .timer => simp [reply, Origin.calls]
  | .call true =>
      rw [reply, endCall_of_dropped (by exact dropped)]
      simp [Origin.calls]
  | .call false =>
      rw [reply, endCall_of_dropped (by exact dropped)]
      simp [Origin.calls, note]

theorem passLock_of_not_waiting
    (noneWaiting : ∀ other ∈ session.runs, other.phase ≠ .waiting) (id : DocumentId) :
    session.passLock id = session := by
  have noWaiter : session.runs.find?
      (fun other => decide (other.id = id) && decide (other.phase = .waiting)) = none := by
    rw [List.find?_eq_none]
    intro other member
    simp [noneWaiting other member]
  rw [passLock, noWaiter]

theorem removeRun_of_not_waiting
    (noneWaiting : ∀ other ∈ session.runs, other.phase ≠ .waiting) (run : Run) :
    session.removeRun run =
      { session with
        runs := session.runs.filter (!·.is run.id run.generation) } := by
  unfold removeRun
  dsimp only
  split
  case isFalse => rfl
  case isTrue =>
    exact passLock_of_not_waiting
      (fun other member => noneWaiting other (List.mem_filter.mp member).1) run.id

theorem filter_others (session : Session) (run : Run) :
    (session.others run.id).filter (!·.is run.id run.generation) =
      session.others run.id := by
  rw [List.filter_eq_self]
  intro other member
  have different : other.id ≠ run.id := by simpa using (List.mem_filter.mp member).2
  simp [Run.is, different]

theorem filter_others_append (session : Session) (run : Run) :
    (session.others run.id ++ [run]).filter (!·.is run.id run.generation) =
      session.others run.id := by
  rw [List.filter_append, filter_others]
  simp [Run.is]

theorem countLookup_eq (session : Session) (lookup : Lookup) (nanoseconds : Nat) :
    ∃ metrics, session.countLookup lookup nanoseconds = { session with metrics } := by
  cases lookup <;> exact ⟨_, rfl⟩

/-- The run of a document ends, and whoever is to hear of it does. -/
structure Concludes (documents : DocumentId → Option Tracked) (calls : Nat)
    (id : DocumentId) (tracked : Tracked) (origin : Origin) (ending : Ending)
    (session final : Session) : Prop where
  turns : session.Turns id (ending.leaves tracked)
    (ending.event id ::
      if origin = .call false then [.returned id (ending.answer id)] else []) final
  shows : final.Shows (Function.update documents id (ending.leaves tracked)) calls
  answer : final.answer =
    if origin = .call true then ending.answer id else session.answer
  notices : final.notices = session.notices

/-- The run of a document goes on to some other work. -/
structure Resumes (documents : DocumentId → Option Tracked) (calls : Nat)
    (id : DocumentId) (tracked : Tracked) (work : Work) (session final : Session) :
    Prop where
  turns : session.Turns id (some (tracked.during work)) [] final
  shows : final.Shows (Function.update documents id (some (tracked.during work))) calls
  answer : final.answer = session.answer
  notices : final.notices = session.notices

/-- A run that was due has ended, or it computes the text that it is to publish. -/
def Reads (documents : DocumentId → Option Tracked) (calls : Nat) (id : DocumentId)
    (tracked : Tracked) (work : Work) (session final : Session) : Prop :=
  session.Concludes documents calls id tracked work.origin
      ((session.strand documents id).reading tracked work.config) final ∨
    ∃ text, (session.strand documents id).reading tracked work.config =
        (session.strand documents id).conclusion tracked text
          (Highlights.compute text work.config.highlight) ∧
      session.Resumes documents calls id tracked { work with phase := .computing text }
        final

/-- What is being carried out meanwhile does not matter. -/
theorem Reads.aside (reads : session.Reads documents calls id tracked work final)
    (control : Control) :
    { session with control }.Reads documents calls id tracked work final := by
  have turned {new? : Option Tracked} {news : List Event}
      (turns : session.Turns id new? news final) :
      { session with control }.Turns id new? news final :=
    ⟨turns.ids, turns.entries, turns.runs, turns.clock, turns.sources, turns.quiet,
      turns.settings, turns.nextId, turns.held, turns.dropped, turns.log⟩
  rcases reads with ⟨turns, shows, answer, notices⟩ |
    ⟨text, same, turns, shows, answer, notices⟩
  · exact .inl ⟨turned turns, shows, answer, notices⟩
  · exact .inr ⟨text, same, turned turns, shows, answer, notices⟩

/-- The session while the run of a document reads it. -/
def atReading (session : Session) (id : DocumentId) (tracked : Tracked) (work : Work)
    (document : Source) : Session :=
  { session with
    registry := session.registry.modify id (Entry.advanced .pending .computing)
    sources := session.sources.modify tracked.source fun _ => document.beginSnapshot.2
    runs := session.others id ++ [tracked.runOf id { work with phase := .reading }] }

namespace Shows

theorem own_runs (known : documents id = some tracked)
    (underWay : tracked.work? = some work) :
    ((documents id).bind (Tracked.run? id)).toList = [tracked.runOf id work] := by
  simp [known, Tracked.run?, underWay]

theorem concludes (ending : Ending) (registry : Registry) (metrics : Metrics)
    (sources : List Source) (shows : session.Shows documents calls)
    (known : documents id = some tracked) (underWay : tracked.work? = some work)
    (ids : registry.ids.Nodup)
    (entries : ∀ other, registry.find? other =
      if other = id then (ending.leaves tracked).map (Tracked.entry session.held id)
      else session.registry.find? other)
    (sameSources : sources.map Source.unscripted =
      session.sources.map Source.unscripted)
    (quiet : ∀ source ∈ sources, source.isQuiet = true) :
    session.Concludes documents calls id tracked work.origin ending
      ({ session with
          registry
          runs := session.others id
          metrics
          sources
          log := session.log ++ [(session.clock, ending.event id)] }.reply
        work.origin id (ending.answer id)) := by
  rw [reply_of_dropped (by exact shows.dropped)]
  have resting : (ending.leaves tracked).bind (Tracked.run? id) = none := by
    cases ending <;> simp [Ending.leaves, Tracked.run?, Tracked.rested]
  have turns : session.Turns id (ending.leaves tracked)
      (ending.event id ::
        if work.origin = .call false then [.returned id (ending.answer id)] else [])
      { session with
        registry
        runs := session.others id
        metrics
        sources
        calls := session.calls - work.origin.calls
        answer :=
          if work.origin = .call true then ending.answer id else session.answer
        log := session.log ++ [(session.clock, ending.event id)] ++
          if work.origin = .call false then
            [(session.clock, .returned id (ending.answer id))]
          else [] } :=
    { ids
      entries
      runs := by simp [resting]
      clock := rfl
      sources := sameSources
      quiet
      settings := rfl
      nextId := rfl
      held := rfl
      dropped := rfl
      log := by
        by_cases detached : work.origin = .call false <;> simp [detached] }
  refine ⟨turns, shows.turn turns ?_ ?_ shows.sound, rfl, rfl⟩
  · intro left isLeft
    have same : left = tracked.rested := by
      cases ending <;> simp_all [Ending.leaves]
    rw [same]
    exact ⟨(shows.known known).1, (shows.known known).2, by simp [Tracked.rested]⟩
  · intro others counted
    rw [own_runs known underWay] at counted
    rw [resting]
    have origin : (tracked.runOf id work).origin = work.origin := rfl
    simp only [List.map_cons, List.map_nil, List.sum_cons, List.sum_nil, origin,
      Option.toList_none] at counted ⊢
    omega

theorem advanceState? (before after : DocumentState)
    (shows : session.Shows documents calls) (known : documents id = some tracked)
    (underWay : tracked.work? = some work) (state : work.phase.state = before) :
    session.advanceState? (tracked.runOf id work) before after =
      some { session with
        registry := session.registry.modify id (Entry.advanced before after) } := by
  have found : session.registry.find? (tracked.runOf id work).id = _ :=
    shows.find?_entry known
  have held := (shows.working known underWay).1
  unfold Session.advanceState?
  rw [found]
  apply if_pos
  simp [Tracked.entry, Tracked.runOf, Tracked.state, underWay, held, state]

theorem not_locked (shows : session.Shows documents calls)
    (known : documents id = some tracked) (underWay : tracked.work? = some work)
    (due : work.phase = .due) : session.isLocked id = false := by
  rw [isLocked, List.any_eq_false]
  intro run member
  by_cases here : run.id = id
  · have same := shows.eq_of_id member (shows.mem_runs known underWay) here
    simp [same, Tracked.runOf, due, Phase.holdsLock]
  · simp [here]

/-- A run ends that finds its document given up. -/
theorem finishDropped (shows : session.Shows documents calls)
    (known : documents id = some tracked) (underWay : tracked.work? = some work) :
    session.Concludes documents calls id tracked work.origin .closed
      (session.finishDropped (tracked.runOf id work)) := by
  have isTracked : session.registry.contains (tracked.runOf id work).id = true :=
    Registry.contains_iff.mpr ⟨_, shows.find?_entry known⟩
  have ended := concludes .closed (session.registry.erase id)
    ((session.metrics.record .discarded).record .documentClosed) session.sources shows
    known underWay (shows.ids.sublist (session.registry.ids_erase_sublist id))
    (fun other => by
      rw [Registry.find?_erase]
      rfl)
    rfl shows.quiet
  rw [Session.finishDropped, finish, closeDropped_tracked isTracked,
    removeRun_of_not_waiting (by exact fun _ member => shows.not_waiting member)]
  rw [← show _ = session.others id from shows.filter_is (shows.mem_runs known underWay)]
    at ended
  exact ended

/-- A document that is alive is read once the lock is free. -/
theorem requestLock_reads {document : Source} (shows : session.Shows documents calls)
    (known : documents id = some tracked) (underWay : tracked.work? = some work)
    (due : work.phase = .due)
    (living : session.sources[tracked.source]?.filter Source.isAlive = some document)
    (frames : List Frame) :
    session.requestLock (tracked.runOf id work) frames =
      ((session.atReading id tracked work document).takeSnapshot
        (tracked.runOf id { work with phase := .reading })).answering .nothing frames := by
  have found := (filter_isAlive_eq_some living).1
  have alive : session.isAlive tracked.source = true := by
    rw [isAlive_eq, living, Option.isSome_some]
  have open_ : session.isLocked (tracked.runOf id work).id = false :=
    shows.not_locked known underWay due
  have silent : document.beginSnapshot.1.isEmpty = true := by
    rw [(Source.beginSnapshot_of_isQuiet
      (shows.quiet document (List.mem_of_getElem? found))).1]
    rfl
  have joined := shows.filter_is (shows.mem_runs known underWay)
  rw [requestLock, if_neg (by simp [open_]), beginWork,
    shows.advanceState? .pending .computing known underWay (by simp [due, Phase.state])]
  dsimp only
  rw [if_pos (show isAlive { session with
      registry := session.registry.modify id (Entry.advanced .pending .computing) }
    (tracked.runOf id work).source = true from alive), readSource]
  rw [show session.sources[(tracked.runOf id work).source]? = some document from found]
  dsimp only
  rw [if_pos silent]
  congr 2
  rw [enterPhase, atReading, ← show _ = session.others id from joined]
  rfl

theorem reread (shows : session.Shows documents calls) {source : SourceId}
    {document : Source} (found : session.sources[source]? = some document) :
    ((session.sources.modify source fun _ => document.beginSnapshot.2).modify source
        Source.endReading).map Source.unscripted =
        session.sources.map Source.unscripted ∧
      ∀ other ∈ (session.sources.modify source fun _ =>
          document.beginSnapshot.2).modify source Source.endReading,
        other.isQuiet = true := by
  obtain ⟨_, same, quiet⟩ := Source.beginSnapshot_of_isQuiet
    (shows.quiet document (List.mem_of_getElem? found))
  exact Source.reread found shows.quiet same quiet

/-- A run goes on to another phase. -/
theorem resumes (phase : Phase) (registry : Registry) (sources : List Source)
    (cache : Option Cache) (shows : session.Shows documents calls)
    (known : documents id = some tracked) (underWay : tracked.work? = some work)
    (ids : registry.ids.Nodup)
    (entries : ∀ other, registry.find? other =
      if other = id then
        some ((tracked.during { work with phase }).entry session.held id)
      else session.registry.find? other)
    (sameSources : sources.map Source.unscripted =
      session.sources.map Source.unscripted)
    (quiet : ∀ source ∈ sources, source.isQuiet = true)
    (sound : ∀ kept, cache = some kept → kept.Sound)
    (fits : Work.Fits session.clock { work with phase }) :
    session.Resumes documents calls id tracked { work with phase }
      { session with
        registry
        runs := session.others id ++ [tracked.runOf id { work with phase }]
        sources
        cache } := by
  have turns : session.Turns id (some (tracked.during { work with phase })) []
      { session with
        registry
        runs := session.others id ++ [tracked.runOf id { work with phase }]
        sources
        cache } :=
    { ids
      entries
      runs := .refl _
      clock := rfl
      sources := sameSources
      quiet
      settings := rfl
      nextId := rfl
      held := rfl
      dropped := rfl
      log := by simp }
  refine ⟨turns, shows.turn turns ?_ ?_ sound, rfl, rfl⟩
  · rintro _ ⟨⟩
    refine ⟨(shows.known known).1, (shows.known known).2, ?_⟩
    rintro _ ⟨⟩
    exact ⟨(shows.working known underWay).1, fits⟩
  · intro others counted
    rw [own_runs known underWay] at counted
    exact counted

/-- The registry after a change of one entry. -/
theorem modified (change : Entry → Entry) (shows : session.Shows documents calls)
    (known : documents id = some tracked) (after : Tracked)
    (keeps : ∀ entry, (change entry).id = entry.id)
    (same : change (tracked.entry session.held id) = after.entry session.held id) :
    (session.registry.modify id change).ids.Nodup ∧
      ∀ other, (session.registry.modify id change).find? other =
        if other = id then some (after.entry session.held id)
        else session.registry.find? other := by
  refine ⟨by rw [Registry.ids_modify keeps]; exact shows.ids, fun other => ?_⟩
  rw [Registry.find?_modify keeps]
  by_cases here : other = id
  · rw [if_pos here, if_pos here, here, shows.find?_entry known, Option.map_some, same]
  · rw [if_neg here, if_neg here]

/-- A text within the ceiling goes on to be computed. -/
theorem takeSnapshot_within {document : Source} (shows : session.Shows documents calls)
    (known : documents id = some tracked) (underWay : tracked.work? = some work)
    (found : session.sources[tracked.source]? = some document)
    (within : document.text.exceeds work.config.maxChars = false) :
    session.Resumes documents calls id tracked
      { work with phase := .computing document.text }
      ((session.atReading id tracked work document).takeSnapshot
        (tracked.runOf id { work with phase := .reading })) := by
  have held := (shows.working known underWay).1
  obtain ⟨same, quiet⟩ := shows.reread found
  have begun : (tracked.entry session.held id).advanced .pending .computing =
      (tracked.during { work with phase := .computing document.text }).entry
        session.held id := by
    simp [Entry.advanced, Tracked.entry, Tracked.during, Tracked.state, Tracked.armed?,
      held, Phase.state]
  obtain ⟨ids, entries⟩ := shows.modified (Entry.advanced .pending .computing) known _
    (fun _ => rfl) begun
  have resumed := resumes (.computing document.text) _ _ session.cache shows known
    underWay ids entries same quiet shows.sound trivial
  have read : (session.atReading id tracked work document).sources[
      (tracked.runOf id { work with phase := .reading }).source]? =
        some document.beginSnapshot.2 := by
    simp [atReading, Tracked.runOf, found]
  have joined := filter_others_append session
    (tracked.runOf id { work with phase := .reading })
  rw [takeSnapshot, read]
  dsimp only
  rw [if_neg (by exact Bool.eq_false_iff.mp within), enterPhase]
  dsimp only [modifySource, atReading]
  rw [← show _ = session.others id from joined] at resumed
  exact resumed

/-- A run ends that finds its document over the ceiling. -/
theorem takeSnapshot_above {document : Source} (shows : session.Shows documents calls)
    (known : documents id = some tracked) (underWay : tracked.work? = some work)
    (found : session.sources[tracked.source]? = some document)
    (above : document.text.exceeds work.config.maxChars = true) :
    session.Concludes documents calls id tracked work.origin
      (.oversized document.text.length)
      ((session.atReading id tracked work document).takeSnapshot
        (tracked.runOf id { work with phase := .reading })) := by
  have held := (shows.working known underWay).1
  obtain ⟨same, quiet⟩ := shows.reread found
  have settled : (((tracked.entry session.held id).advanced .pending .computing).advanced
      .computing .idle) = tracked.rested.entry session.held id := by
    simp [Entry.advanced, Tracked.entry, Tracked.rested, Tracked.state, Tracked.armed?,
      held]
  obtain ⟨ids, entries⟩ := shows.modified
    (Entry.advanced .computing .idle ∘ Entry.advanced .pending .computing) known
    tracked.rested (fun _ => rfl) settled
  have ended := concludes (.oversized document.text.length) _
    (session.metrics.record .oversized) _ shows known underWay ids entries same quiet
  have read : (session.atReading id tracked work document).sources[
      (tracked.runOf id { work with phase := .reading }).source]? =
        some document.beginSnapshot.2 := by
    simp [atReading, Tracked.runOf, found]
  have current : ((session.atReading id tracked work document).modifySource
      tracked.source Source.endReading).registry.find? id =
        some ((tracked.entry session.held id).advanced .pending .computing) :=
    Registry.find?_modify_self (fun _ => rfl) (shows.find?_entry known)
  have twice : (session.registry.modify id (Entry.advanced .pending .computing)).modify id
      (Entry.advanced .computing .idle) = session.registry.modify id
        (Entry.advanced .computing .idle ∘ Entry.advanced .pending .computing) :=
    Registry.modify_modify (by exact fun _ => rfl) session.registry id
  have advance : ((session.atReading id tracked work document).modifySource
      tracked.source Source.endReading).advanceState?
        (tracked.runOf id { work with phase := .reading }) .computing .idle =
      some { (session.atReading id tracked work document).modifySource
        tracked.source Source.endReading with
          registry := session.registry.modify id
            (Entry.advanced .computing .idle ∘ Entry.advanced .pending .computing) } := by
    rw [Session.advanceState?, show (tracked.runOf id { work with phase := .reading }).id = id
      from rfl, current]
    dsimp only
    rw [if_pos ⟨rfl, rfl⟩, ← twice]
    rfl
  have joined := filter_others_append session
    (tracked.runOf id { work with phase := .reading })
  have noneWaiting : ∀ other ∈ (session.atReading id tracked work document).runs,
      other.phase ≠ .waiting := by
    intro other member
    rcases List.mem_append.mp member with foreign | own
    · exact shows.not_waiting (List.mem_filter.mp foreign).1
    · rw [List.mem_singleton.mp own]
      intro impossible
      cases impossible
  rw [takeSnapshot, read]
  dsimp only
  rw [if_pos (by exact above), finishOversized]
  rw [show (tracked.runOf id { work with phase := .reading }).source = tracked.source
    from rfl, advance, Option.getD_some, finish,
    removeRun_of_not_waiting (by exact noneWaiting)]
  dsimp only [modifySource, atReading, count, note]
  rw [← show _ = session.others id from joined] at ended
  exact ended

/-- A run that is due ends, or begins to compute the text that it is to publish. -/
theorem requestLock (shows : session.Shows documents calls)
    (known : documents id = some tracked) (underWay : tracked.work? = some work)
    (due : work.phase = .due) (frames : List Frame) :
    ∃ final, session.requestLock (tracked.runOf id work) frames =
        final.answering .nothing frames ∧
      session.Reads documents calls id tracked work final := by
  have living := session.strand_living? documents id tracked.source
  cases found : session.sources[tracked.source]?.filter Source.isAlive with
  | none =>
      have gone : session.isAlive tracked.source = false := by
        rw [isAlive_eq, found, Option.isSome_none]
      have open_ : session.isLocked (tracked.runOf id work).id = false :=
        shows.not_locked known underWay due
      have closes : (session.strand documents id).reading tracked work.config = .closed := by
        rw [Strand.reading, living, found, Option.map_none]
      refine ⟨session.finishDropped (tracked.runOf id work), ?_,
        .inl (closes ▸ shows.finishDropped known underWay)⟩
      have advance := shows.advanceState? .pending .computing known underWay
        (by simp [due, Phase.state])
      rw [Session.requestLock, if_neg (by simp [open_]), beginWork, advance]
      dsimp only
      rw [if_neg (by exact Bool.eq_false_iff.mp gone), Session.finishDropped,
        closeDropped_of_advance advance, Session.finishDropped]
  | some document =>
      have present := (filter_isAlive_eq_some found).1
      refine ⟨_, shows.requestLock_reads known underWay due found frames, ?_⟩
      have read : (session.strand documents id).reading tracked work.config =
          if document.text.exceeds work.config.maxChars then
            .oversized document.text.length
          else
            .published ⟨tracked.generation, document.text,
              Highlights.compute document.text work.config.highlight⟩ := by
        rw [Strand.reading, living, found]
        rfl
      by_cases above : document.text.exceeds work.config.maxChars = true
      · rw [Reads, read, if_pos above]
        exact .inl (shows.takeSnapshot_above known underWay present above)
      · refine .inr ⟨document.text, ?_, shows.takeSnapshot_within known underWay present
          (Bool.eq_false_iff.mpr above)⟩
        rw [read, if_neg above, Strand.conclusion, living, found]
        rfl

/-- A run that computes has computed the highlights of its text. -/
theorem complete {text : Text} (shows : session.Shows documents calls)
    (known : documents id = some tracked) (underWay : tracked.work? = some work)
    (computing : work.phase = .computing text) :
    ∃ lookup, session.Resumes documents calls id tracked
      { work with
        phase := .computed text (Highlights.compute text work.config.highlight) lookup }
      (session.complete (tracked.runOf id work) text) := by
  have held := (shows.working known underWay).1
  have unchanged : ∀ other, session.registry.find? other =
      if other = id then
        some ((tracked.during { work with
          phase := .computed text (Highlights.compute text work.config.highlight)
            (session.highlightText text work.config.highlight).1.2 }).entry session.held id)
      else session.registry.find? other := by
    intro other
    by_cases here : other = id
    · rw [if_pos here, here, shows.find?_entry known]
      simp [Tracked.entry, Tracked.during, Tracked.state, Tracked.armed?, underWay,
        computing, Phase.state]
    · rw [if_neg here]
  have looked : (session.highlightText text work.config.highlight).1.1 =
        Highlights.compute text work.config.highlight ∧
      ∀ kept, (session.highlightText text work.config.highlight).2.cache = some kept →
        kept.Sound := by
    unfold highlightText
    cases cached : session.cache with
    | none => exact ⟨rfl, by simp [cached]⟩
    | some cache =>
        obtain ⟨answers, sound⟩ := Cache.getOrCompute_sound (shows.sound cache cached)
          session.clock text work.config.highlight
        exact ⟨answers, by rintro _ ⟨⟩; exact sound⟩
  obtain ⟨cache, sameSession⟩ := highlightText_eq session text work.config.highlight
  have resumed := resumes _ session.registry session.sources cache shows known underWay
    shows.ids unchanged rfl shows.quiet (by simpa [sameSession] using looked.2) rfl
  have parted : (session.highlightText text work.config.highlight).2.withoutRun
      (tracked.runOf id work) = { session with cache, runs := session.others id } := by
    rw [sameSession, withoutRun]
    rw [shows.filter_is (shows.mem_runs known underWay)]
    rfl
  have noneWaiting : ∀ other ∈ session.others id, other.phase ≠ .waiting :=
    fun other member => shows.not_waiting (List.mem_filter.mp member).1
  have result : session.complete (tracked.runOf id work) text =
      (((session.highlightText text work.config.highlight).2.withoutRun
        (tracked.runOf id work)).passLock id).enterPhase (tracked.runOf id work)
          (session.computedPhase (tracked.runOf id work) text) := rfl
  refine ⟨(session.highlightText text work.config.highlight).1.2, ?_⟩
  rw [result, parted, passLock_of_not_waiting (by exact noneWaiting), enterPhase,
    computedPhase, show (tracked.runOf id work).config = work.config from rfl, looked.1]
  dsimp only
  rw [show (session.others id).filter _ = session.others id from
    filter_others session (tracked.runOf id work)]
  exact resumed

/-- A run that has computed publishes, unless its document was given up. -/
theorem conclude {text : Text} {highlights : Highlights} {lookup : Lookup}
    (shows : session.Shows documents calls)
    (known : documents id = some tracked) (underWay : tracked.work? = some work)
    (computed : work.phase = .computed text highlights lookup) (nanoseconds : Nat) :
    session.Concludes documents calls id tracked work.origin
      ((session.strand documents id).conclusion tracked text highlights)
      (session.conclude (tracked.runOf id work) text highlights lookup nanoseconds) := by
  have held := (shows.working known underWay).1
  obtain ⟨metrics, counted⟩ := countLookup_eq session lookup nanoseconds
  have showsCounted := shows.aside metrics session.notices session.control session.answer
    session.log
  have living := session.strand_living? documents id tracked.source
  rw [Session.conclude, counted]
  dsimp only
  cases found : session.sources[tracked.source]?.filter Source.isAlive with
  | none =>
      have gone : { session with metrics }.isAlive tracked.source = false := by
        rw [isAlive_eq, found, Option.isSome_none]
      rw [if_neg (by exact Bool.eq_false_iff.mp gone), Strand.conclusion, living, found,
        Option.map_none]
      obtain ⟨turns, closed, answer, notices⟩ :=
        showsCounted.finishDropped known underWay
      exact ⟨⟨turns.ids, turns.entries, turns.runs, turns.clock, turns.sources,
        turns.quiet, turns.settings, turns.nextId, turns.held, turns.dropped, turns.log⟩,
        closed, answer, notices⟩
  | some document =>
      have alive : { session with metrics }.isAlive tracked.source = true := by
        rw [isAlive_eq, found, Option.isSome_some]
      have settled : (tracked.entry session.held id).advanced .computing .idle =
          tracked.rested.entry session.held id := by
        simp [Entry.advanced, Tracked.entry, Tracked.rested, Tracked.state,
          Tracked.armed?, underWay, computed, Phase.state, held]
      obtain ⟨ids, entries⟩ := shows.modified (Entry.advanced .computing .idle) known
        tracked.rested (fun _ => rfl) settled
      have ended := concludes (.published ⟨tracked.generation, text, highlights⟩) _
        (metrics.record .published) _ shows known underWay ids entries rfl shows.quiet
      rw [if_pos (by exact alive),
        showsCounted.advanceState? .computing .idle known underWay
          (by simp [computed, Phase.state]), Strand.conclusion, living, found,
        Option.map_some]
      dsimp only
      rw [finish, removeRun_of_not_waiting (by exact fun _ member => shows.not_waiting member)]
      rw [← show _ = session.others id from
        shows.filter_is (shows.mem_runs known underWay)] at ended
      exact ended

end Shows

end Session

end LogTint
