import LogTint.Proofs.Moves
import LogTint.Proofs.StillWork

/-!
# Edits of still documents and their end

An edit and a release cancel the timer of their document, and nothing else.  So
only the document that they are about changes, and as its strand says.
-/

namespace LogTint

theorem Tracked.state_ne_closed (tracked : Tracked) : tracked.state ≠ .closed := by
  unfold Tracked.state
  split
  · exact nofun
  · rename_i work _
    cases work.phase <;> exact nofun

namespace Session

variable {documents : DocumentId → Option Tracked} {calls : Nat}
  {session final : Session} {id : DocumentId} {tracked : Tracked}

/-- Nothing is under way but timers. -/
def Asleep (documents : DocumentId → Option Tracked) : Prop :=
  ∀ id tracked, documents id = some tracked → tracked.Dormant

/-- A document is edited. -/
structure Edited (documents : DocumentId → Option Tracked) (after : Nat)
    (id : DocumentId) (new? : Option Tracked) (notices : List Notice)
    (session final : Session) : Prop where
  turns : session.Turns id new? [] final
  shows : final.Shows (Function.update documents id new?) after
  answer : final.answer = session.answer
  notices : final.notices = session.notices ++ notices

namespace Shows

/-- The timer of a document is armed. -/
theorem isArmed_of_dormant (shows : session.Shows documents calls)
    (known : documents id = some tracked) (dormant : tracked.Dormant) {run : Run}
    (member : run ∈ session.runs) (here : run.id = id) : session.IsArmed run.key := by
  obtain ⟨other, work, knownOther, underWay, same⟩ := shows.exists_work member
  rw [here, known] at knownOther
  cases knownOther
  have timer := (shows.working known underWay).2.timer (dormant work underWay)
  rw [isArmed_iff]
  refine ⟨tracked.entry session.held id, ?_, ?_⟩
  · rw [show run.key.1 = id from here]
    exact shows.find?_entry known
  · rw [← same]
    simp [Tracked.entry, Tracked.armed?, underWay, timer, Tracked.runOf, Run.key]

/-- Cancelling the timer of a document leaves the runs of the others. -/
theorem kept_others {runs : List Run} (shows : session.Shows documents calls)
    (known : documents id = some tracked) (dormant : tracked.Dormant)
    (kept : Run.Kept (fun key => ¬(key.1 = id ∧ session.IsArmed key)) session.runs runs) :
    runs.Perm (session.others id) := by
  have distinct : runs.Nodup := List.Nodup.of_map _ kept.distinct
  have distinctOthers : (session.others id).Nodup :=
    (List.Nodup.of_map _ shows.solitary).filter _
  rw [List.perm_ext_iff_of_nodup distinct distinctOthers]
  intro run
  rw [others, List.mem_filter]
  constructor
  · intro member
    obtain ⟨earlier, earlierMember, keeps, continues⟩ := kept.origin run member
    rw [continues.eq (shows.not_waiting earlierMember)]
    refine ⟨earlierMember, decide_eq_true fun here => ?_⟩
    exact keeps ⟨here, shows.isArmed_of_dormant known dormant earlierMember here⟩
  · rintro ⟨member, different⟩
    exact kept.mem member (fun both => of_decide_eq_true different both.1)
      (shows.not_waiting member)

/-- A document is given its next generation and a state, and its timer is
cancelled. -/
theorem renew (shows : session.Shows documents calls)
    (known : documents id = some tracked) (dormant : tracked.Dormant)
    (held : session.held = true) (state : DocumentState) :
    ∃ registry runs metrics,
      (session.supersede id).setState id state =
        { session with registry, runs, metrics } ∧
      registry.ids.Nodup ∧ runs.Perm (session.others id) ∧
      ∀ other, registry.find? other =
        if other = id then
          some { id, source := tracked.source, state
                 generation := tracked.generation + 1, armed := none }
        else session.registry.find? other := by
  obtain ⟨registry, runs, metrics, edited, kept, renewed⟩ :=
    renew_spec session shows.distinct id state
  refine ⟨registry, runs, metrics, renewed, by rw [edited.ids]; exact shows.ids,
    shows.kept_others known dormant kept, fun other => ?_⟩
  rw [edited.find?]
  by_cases here : other = id
  · have open_ : (tracked.entry session.held id).state ≠ .closed := by
      simpa [Tracked.entry, held] using tracked.state_ne_closed
    rw [here, shows.find?_entry known]
    simp only [if_true, Option.map_some, Entry.renewed, if_neg open_]
    rfl
  · simp [here]

/-- The documents are shown as well when those of the host are read. -/
theorem withSources {sources : List Source} (shows : session.Shows documents calls)
    (length : session.sources.length ≤ sources.length)
    (quiet : ∀ source ∈ sources, source.isQuiet = true) :
    { session with sources }.Shows documents calls where
  ids := shows.ids
  entries := shows.entries
  solitary := shows.solitary
  runs := shows.runs
  known := fun known =>
    ⟨(shows.known known).1, Nat.lt_of_lt_of_le (shows.known known).2 length⟩
  working := shows.working
  quiet := quiet
  sound := shows.sound
  debounce := shows.debounce
  dropped := shows.dropped
  calls := shows.calls

/-- One more call is in progress. -/
theorem beginCall (shows : session.Shows documents calls) :
    session.beginCall.Shows documents (calls + 1) where
  ids := shows.ids
  entries := shows.entries
  solitary := shows.solitary
  runs := shows.runs
  known := shows.known
  working := shows.working
  quiet := shows.quiet
  sound := shows.sound
  debounce := shows.debounce
  dropped := shows.dropped
  calls := by
    rw [Session.beginCall]
    dsimp only
    rw [shows.calls]
    omega

/-- The calls that documents have in progress. -/
theorem own_calls_of_dormant (shows : session.Shows documents calls)
    (dormant : ∀ tracked, documents id = some tracked → tracked.Dormant) :
    (((documents id).bind (Tracked.run? id)).toList.map (·.origin.calls)).sum = 0 := by
  cases known : documents id with
  | none => rfl
  | some tracked =>
      cases underWay : tracked.work? with
      | none => simp [Tracked.run?, underWay]
      | some work =>
          have timer := (shows.working known underWay).2.timer
            (dormant tracked known work underWay)
          simp [Tracked.run?, underWay, Tracked.runOf, timer, Origin.calls]

/-- An edit arms a timer, or finds its document over the ceiling. -/
theorem applyEdit (shows : session.Shows documents calls)
    (known : documents id = some tracked) (dormant : tracked.Dormant)
    (held : session.held = true) (chars : Nat) :
    ∃ registry runs metrics work?,
      session.applyEdit id chars =
        (if session.settings.maxChars < chars then .outcome .bypassed
          else .outcome .scheduled, { session with registry, runs, metrics }) ∧
      (work? = if session.settings.maxChars < chars then none
        else some (session.strand documents id).timer) ∧
      session.Turns id (some (tracked.renewed work?)) []
        { session with registry, runs, metrics } := by
  have found := shows.find?_entry known
  by_cases above : session.settings.maxChars < chars
  · obtain ⟨registry, runs, metrics, renewed, ids, others, entries⟩ :=
      shows.renew known dormant held .idle
    refine ⟨registry, runs, metrics.record .bypassed, none, ?_, by rw [if_pos above],
      ids, ?_, ?_, rfl, rfl, shows.quiet, rfl, rfl, rfl, rfl, by simp⟩
    · rw [Session.applyEdit, found]
      dsimp only
      rw [if_pos (by exact above), if_pos above, renewed]
      rfl
    · intro other
      rw [entries]
      simp [Tracked.entry, Tracked.renewed, Tracked.state, Tracked.armed?, held]
    · simpa [Tracked.run?, Tracked.renewed] using others
  · obtain ⟨registry, runs, metrics, renewed, ids, others, entries⟩ :=
      shows.renew known dormant held .pending
    refine ⟨registry.modify id fun entry =>
        { entry with armed := some (tracked.generation + 1) },
      runs ++ [(tracked.renewed (some (session.strand documents id).timer)).runOf id
        (session.strand documents id).timer], metrics, _, ?_, rfl, ?_, ?_, ?_, rfl, rfl,
      shows.quiet, rfl, rfl, rfl, rfl, by simp⟩
    · rw [Session.applyEdit, found]
      dsimp only
      rw [if_neg (by exact above), if_neg above, renewed]
      rfl
    · rw [Registry.ids_modify (by exact fun _ => rfl)]
      exact ids
    · intro other
      rw [Registry.find?_modify (by exact fun _ => rfl), entries]
      by_cases here : other = id
      · simp [here, Tracked.entry, Tracked.renewed, Tracked.state, Tracked.armed?, held,
          above, Strand.timer, Phase.state]
      · simp [here]
    · rw [if_neg above]
      simpa [Tracked.run?, Tracked.renewed] using others.append_right _

/-- A release cancels the timer of its document. -/
theorem release (shows : session.Shows documents calls)
    (known : documents id = some tracked) (dormant : tracked.Dormant) :
    ∃ registry runs metrics,
      session.release id = { session with registry, runs, metrics } ∧
      session.Turns id none [] { session with registry, runs, metrics } := by
  have isTracked : session.registry.contains id = true := by
    rw [shows.contains, known, Option.isSome_some]
  obtain ⟨registry, runs, metrics, sublist, entries, kept, released⟩ :=
    release_spec session shows.distinct isTracked
  refine ⟨registry, runs, metrics, released, shows.ids.sublist sublist, entries, ?_, rfl,
    rfl, shows.quiet, rfl, rfl, rfl, rfl, by simp⟩
  simpa using shows.kept_others known dormant kept

/-- Nothing changes for any document. -/
theorem rests (shows : session.Shows documents calls) (id : DocumentId) (calls : Nat) :
    session.Turns id (documents id) [] { session with calls } where
  ids := shows.ids
  entries other := by
    by_cases here : other = id
    · rw [if_pos here, here, shows.entries]
    · rw [if_neg here]
  runs := shows.perm_others id
  clock := rfl
  sources := rfl
  quiet := shows.quiet
  settings := rfl
  nextId := rfl
  held := rfl
  dropped := rfl
  log := by simp

theorem isSleeping_of_asleep (shows : session.Shows documents calls)
    (asleep : Asleep documents) {run : Run} (member : run ∈ session.runs) :
    run.phase.isSleeping = true := by
  obtain ⟨tracked, work, known, underWay, same⟩ := shows.exists_work member
  rw [← same]
  exact asleep run.id tracked known work underWay

theorem beginCall_count (shows : session.Shows documents calls)
    (occurrence : Occurrence) :
    (session.beginCall.count occurrence).Shows documents (calls + 1) :=
  shows.beginCall.aside _ _ _ _ _

/-- An edit finds its document given up. -/
theorem beginEdit_gone (shows : session.Shows documents calls) (asleep : Asleep documents)
    (known : documents id = some tracked)
    (gone : session.sources[tracked.source]?.filter Source.isAlive = none)
    (frames : List Frame) :
    ∃ final,
      session.beginEdit id frames =
        final.answering (.failure (.documentClosed id)) (.call :: frames) ∧
      session.Edited documents (calls + 1) id none [⟨id, []⟩] final := by
  have counted := shows.beginCall_count .edit
  obtain ⟨registry, runs, metrics, released, turns⟩ :=
    counted.release known (asleep id tracked known)
  have noneQueued : runs.filter (·.phase.isQueued) = [] := by
    rw [List.filter_eq_nil_iff]
    intro run member
    have foreign := turns.runs.mem_iff.mp member
    simp only [Option.bind_none, Option.toList_none, List.append_nil] at foreign
    have sleeps := shows.isSleeping_of_asleep asleep (List.mem_filter.mp foreign).1
    cases phase : run.phase <;> simp_all [Phase.isSleeping, Phase.isQueued]
  have turned : session.Turns id none []
      { session with
        registry, runs, metrics
        calls := session.calls + 1
        notices := session.notices ++ [⟨id, []⟩] } :=
    ⟨turns.ids, turns.entries, turns.runs, rfl, rfl, shows.quiet, rfl, rfl, rfl, rfl,
      by simp⟩
  refine ⟨_, ?_, turned, shows.turn turned (by rintro _ ⟨⟩) ?_ shows.sound, rfl, rfl⟩
  · rw [Session.beginEdit]
    dsimp only
    rw [shows.beginCall.find?_entry known]
    dsimp only
    rw [show (session.beginCall.count .edit).sources[
        (tracked.entry session.beginCall.held id).source]?.filter Source.isAlive = none
      from gone]
    dsimp only
    rw [released, sendNotice, noneQueued]
    rfl
  · intro others counted
    rw [shows.own_calls_of_dormant (asleep id)] at counted
    simp only [Option.bind_none, Option.toList_none, List.map_nil, List.sum_nil]
    omega

/-- An edit asks for the length of a document that is alive. -/
theorem beginEdit_living {document : Source} (shows : session.Shows documents calls)
    (asleep : Asleep documents) (held : session.held = true)
    (known : documents id = some tracked)
    (living : session.sources[tracked.source]?.filter Source.isAlive = some document)
    (frames : List Frame) :
    ∃ final,
      session.beginEdit id frames =
        final.answering
          (if session.settings.maxChars < document.length then .outcome .bypassed
            else .outcome .scheduled) (.call :: frames) ∧
      session.Edited documents (calls + 1) id
        (some (tracked.renewed
          (if session.settings.maxChars < document.length then none
            else some (session.strand documents id).timer))) [] final := by
  have present := (filter_isAlive_eq_some living).1
  obtain ⟨silent, same, quiet⟩ := Source.beginLength_of_isQuiet
    (shows.quiet document (List.mem_of_getElem? present))
  obtain ⟨sameSources, allQuiet⟩ := Source.reread present shows.quiet same quiet
  have read := (shows.beginCall_count .edit).withSources
    (by rw [List.length_modify, List.length_modify]; exact Nat.le_refl _) allQuiet
  obtain ⟨registry, runs, metrics, work?, applied, isWork, turns⟩ :=
    read.applyEdit known (asleep id tracked known) held document.length
  have timer : work? = if session.settings.maxChars < document.length then none
      else some (session.strand documents id).timer := isWork
  have turned : session.Turns id (some (tracked.renewed work?)) [] _ :=
    ⟨turns.ids, turns.entries, turns.runs, turns.clock, turns.sources.trans sameSources,
      turns.quiet, turns.settings, turns.nextId, turns.held, turns.dropped, turns.log⟩
  have measured : (session.sources.modify tracked.source fun _ =>
      document.beginLength.2)[tracked.source]? = some document.beginLength.2 := by
    simp [present]
  rw [← timer]
  refine ⟨_, ?_, turned, shows.turn turned ?_ ?_ shows.sound, rfl,
    (List.append_nil _).symm⟩
  · rw [Session.beginEdit]
    dsimp only
    rw [shows.beginCall.find?_entry known]
    dsimp only
    rw [show (session.beginCall.count .edit).sources[
        (tracked.entry session.beginCall.held id).source]?.filter Source.isAlive =
          some document from living]
    dsimp only
    rw [if_pos (by rw [silent]; rfl), finishEdit]
    rw [show ((session.beginCall.count .edit).modifySource
        (tracked.entry session.beginCall.held id).source fun _ =>
          document.beginLength.2).sources[(tracked.entry session.beginCall.held id).source]? =
            some document.beginLength.2 from measured]
    dsimp only
    rw [show Session.applyEdit (((session.beginCall.count .edit).modifySource
        (tracked.entry session.beginCall.held id).source fun _ =>
          document.beginLength.2).modifySource
            (tracked.entry session.beginCall.held id).source Source.endReading) id
              document.beginLength.2.length = _ from applied]
    rfl
  · rintro _ ⟨⟩
    refine ⟨(shows.known known).1, (shows.known known).2, ?_⟩
    intro work underWay
    refine ⟨held, ?_⟩
    rw [show (tracked.renewed work?).work? = work? from rfl, timer] at underWay
    split at underWay
    · cases underWay
    · cases underWay
      exact ⟨Nat.lt_add_of_pos_right shows.debounce, rfl⟩
  · intro others counted
    rw [shows.own_calls_of_dormant (asleep id)] at counted
    have none : ((((some (tracked.renewed work?)).bind (Tracked.run? id)).toList.map
        (·.origin.calls))).sum = 0 := by
      rw [timer]
      split <;> simp [Tracked.run?, Tracked.renewed, Tracked.runOf, Strand.timer,
        Origin.calls]
    rw [none]
    show session.calls + 1 = _
    omega

/-- An edit is carried out without a break. -/
theorem beginEdit (shows : session.Shows documents calls) (asleep : Asleep documents)
    (held : session.held = true) (id : DocumentId) (frames : List Frame) :
    ∃ final,
      session.beginEdit id frames =
        final.answering (session.strand documents id).edit.1 (.call :: frames) ∧
      session.Edited documents (calls + 1) id
        (session.strand documents id).edit.2.tracked?
        (if (documents id).isSome && (session.strand documents id).edit.2.tracked?.isNone
          then [⟨id, []⟩] else []) final := by
  cases known : documents id with
  | none =>
      have nothing : (session.strand documents id).tracked? = none := known
      rw [Strand.edit_unknown nothing]
      dsimp only
      rw [nothing]
      refine ⟨session.beginCall, ?_, ?_, ?_, rfl, (List.append_nil _).symm⟩
      · rw [Session.beginEdit]
        dsimp only
        rw [shows.beginCall.entries, known]
        rfl
      · rw [← known]
        exact shows.rests id (session.calls + 1)
      · rw [← known, Function.update_eq_self]
        exact shows.beginCall
  | some tracked =>
      have here : (session.strand documents id).tracked? = some tracked := known
      have living := session.strand_living? documents id tracked.source
      cases alive : session.sources[tracked.source]?.filter Source.isAlive with
      | none =>
          rw [Strand.edit_gone here (by rw [living, alive]; rfl)]
          exact shows.beginEdit_gone asleep known alive frames
      | some document =>
          rw [Strand.edit_living here (by rw [living, alive]; rfl)]
          exact shows.beginEdit_living asleep held known alive frames

/-- A call gives its document a run that is due. -/
theorem beginNow (shows : session.Shows documents calls) (asleep : Asleep documents)
    (held : session.held = true) (known : documents id = some tracked) (awaited : Bool)
    (frames : List Frame) :
    ∃ asked,
      session.beginNow awaited id frames =
        asked.requestLock
          ((tracked.renewed none).runOf id
            ⟨session.settings.workerConfig, .call awaited, .due⟩) frames ∧
      session.Edited documents calls id
        ((session.strand documents id).asked tracked awaited).tracked? [] asked := by
  obtain ⟨registry, runs, metrics, renewed, ids, others, entries⟩ :=
    shows.beginCall.renew known (asleep id tracked known) held .pending
  let work : Work := ⟨session.settings.workerConfig, .call awaited, .due⟩
  have turned : session.Turns id (some (tracked.renewed (some work))) []
      { session with
        registry
        runs := runs ++ [(tracked.renewed none).runOf id work]
        metrics
        calls := session.calls + 1 } :=
    { ids
      entries := by
        intro other
        rw [entries]
        simp [Tracked.entry, Tracked.renewed, Tracked.state, Tracked.armed?, held, work,
          Phase.state, Session.beginCall]
      runs := by
        have foreign : runs.Perm (session.others id) := others
        simpa [Tracked.run?, Tracked.renewed, Tracked.runOf] using foreign.append_right _
      clock := rfl
      sources := rfl
      quiet := shows.quiet
      settings := rfl
      nextId := rfl
      held := rfl
      dropped := rfl
      log := by simp }
  refine ⟨_, ?_, turned, shows.turn turned ?_ ?_ shows.sound, rfl,
    (List.append_nil _).symm⟩
  · rw [Session.beginNow]
    dsimp only
    rw [shows.beginCall.find?_entry known]
    dsimp only
    rw [renewed]
    rfl
  · rintro _ ⟨⟩
    refine ⟨(shows.known known).1, (shows.known known).2, ?_⟩
    rintro _ ⟨⟩
    exact ⟨held, trivial⟩
  · intro others counted
    rw [shows.own_calls_of_dormant (asleep id)] at counted
    have own : ((((session.strand documents id).asked tracked awaited).tracked?.bind
        (Tracked.run? id)).toList.map (·.origin.calls)).sum = 1 := by
      simp [Strand.asked, Tracked.run?, Tracked.renewed, Tracked.runOf, Origin.calls]
    rw [own]
    show session.calls + 1 = _
    omega

end Shows

end Session

end LogTint
