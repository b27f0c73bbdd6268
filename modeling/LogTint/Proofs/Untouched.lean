import LogTint.Proofs.CacheSound
import LogTint.Proofs.OwnRuns
import LogTint.Proofs.Returning
import LogTint.Proofs.StillWork

/-!
# What is done for one document and the others

The scheduler works for one document at a time.  As long as none of them acts, what it
does for one leaves all that matters to another as it was: its entry, its runs, what the
host has been told of it, and how the sources can be read.
-/

namespace LogTint

namespace Session

/-! ## Sessions in which no document acts -/

/-- Documents are registered under different numbers, which later ones do not get. -/
def Numbered (session : Session) : Prop :=
  session.registry.ids.Nodup ∧ ∀ id ∈ session.registry.ids, id.number < session.nextId

/-- The host holds the scheduler, no document acts, and the cache answers what would
have been computed. -/
structure Calm (session : Session) : Prop where
  held : session.held = true
  quiet : ∀ source ∈ session.sources, source.isQuiet = true
  sound : ∀ cache, session.cache = some cache → cache.Sound
  numbered : session.Numbered

/-- Goes on with a run that has read a text. -/
def takeText (session : Session) (run : Run) (text : Text) : Session :=
  if text.exceeds run.config.maxChars then session.finishOversized run text.length
  else session.enterPhase run (.computing text)

variable {session middle after : Session} {id other : DocumentId} {run : Run}

theorem Numbered.of_sublist (numbered : session.Numbered)
    (ids : after.registry.ids.Sublist session.registry.ids)
    (nextId : after.nextId = session.nextId) : after.Numbered :=
  ⟨ids.nodup numbered.1, fun id member => nextId ▸ numbered.2 id (ids.subset member)⟩

theorem endCall_of_held (held : session.held = true) :
    session.endCall = { session with calls := session.calls - 1 } := by
  apply if_neg
  simp [held]

/-- A document that does not act is read at once. -/
theorem readSource_of_quiet {document : Source}
    (quiet : ∀ source ∈ session.sources, source.isQuiet = true)
    (found : session.sources[run.source]? = some document) (frames : List Frame) :
    ∃ sources, sources.map Source.unscripted = session.sources.map Source.unscripted ∧
      (∀ source ∈ sources, source.isQuiet = true) ∧
      session.readSource run frames =
        ((enterPhase { session with sources } run .reading).takeText
          { run with phase := .reading } document.text).answering .nothing frames := by
  obtain ⟨silent, same, quietAfter⟩ :=
    Source.beginSnapshot_of_isQuiet (quiet document (List.mem_of_getElem? found))
  obtain ⟨sameAfter, allQuiet⟩ := Source.reread found quiet same quietAfter
  refine ⟨_, sameAfter, allQuiet, ?_⟩
  have read : ((session.modifySource run.source fun _ =>
      document.beginSnapshot.2).enterPhase run .reading).sources[run.source]? =
        some document.beginSnapshot.2 := by
    simp [modifySource, enterPhase, found]
  rw [readSource, found]
  dsimp only
  rw [silent, List.isEmpty_nil, if_pos rfl, takeSnapshot, read]
  rfl

/-- The length of a document that does not act is known at once. -/
theorem beginEdit_of_quiet {document : Source} {entry : Entry}
    (quiet : ∀ source ∈ session.sources, source.isQuiet = true)
    (found : session.registry.find? id = some entry)
    (living : session.sources[entry.source]?.filter Source.isAlive = some document)
    (frames : List Frame) :
    ∃ sources, sources.map Source.unscripted = session.sources.map Source.unscripted ∧
      (∀ source ∈ sources, source.isQuiet = true) ∧
      session.beginEdit id frames =
        (applyEdit { session.beginCall.count .edit with sources } id
          document.length).2.answering
          (applyEdit { session.beginCall.count .edit with sources } id
            document.length).1 (.call :: frames) := by
  obtain ⟨source, _⟩ := filter_isAlive_eq_some living
  obtain ⟨silent, same, quietAfter⟩ :=
    Source.beginLength_of_isQuiet (quiet document (List.mem_of_getElem? source))
  obtain ⟨sameAfter, allQuiet⟩ := Source.reread source quiet same quietAfter
  refine ⟨_, sameAfter, allQuiet, ?_⟩
  have living : (session.beginCall.count .edit).sources[entry.source]?.filter
      Source.isAlive = some document := living
  have measured : ((session.beginCall.count .edit).modifySource entry.source fun _ =>
      document.beginLength.2).sources[entry.source]? = some document.beginLength.2 :=
    modifySource_found _ source
  rw [beginEdit, show session.beginCall.registry.find? id = some entry from found]
  dsimp only
  rw [living]
  dsimp only
  rw [silent, List.isEmpty_nil, if_pos rfl, finishEdit, measured]
  rfl

theorem beginEdit_of_unknown (unknown : session.registry.find? id = none)
    (frames : List Frame) :
    session.beginEdit id frames =
      session.beginCall.answering (.failure (.documentNotFound id)) (.call :: frames) := by
  rw [beginEdit, show session.beginCall.registry.find? id = none from unknown]

/-- A document that was given up is not tracked any more. -/
theorem beginEdit_of_dead {entry : Entry} (found : session.registry.find? id = some entry)
    (dead : session.sources[entry.source]?.filter Source.isAlive = none)
    (frames : List Frame) :
    session.beginEdit id frames =
      (((session.beginCall.count .edit).release id).sendNotice id).answering
        (.failure (.documentClosed id)) (.call :: frames) := by
  rw [beginEdit, show session.beginCall.registry.find? id = some entry from found]
  dsimp only
  rw [show (session.beginCall.count .edit).sources[entry.source]?.filter Source.isAlive =
    none from dead]

theorem asked_sources (session : Session) (id : DocumentId) (call : Run) :
    (session.asked id call).sources = session.sources := by
  have cancelled : ∀ session : Session,
      (session.cancelArmed id).2.sources = session.sources := by
    intro session
    unfold cancelArmed
    split
    · rfl
    · split
      · rfl
      · dsimp only
        rw [removeRun_eq]
        rfl
  change (session.beginCall.supersede id).sources = session.sources
  unfold supersede
  dsimp only
  split
  · exact cancelled _
  · exact cancelled _

/-! ### What is done at once

A run asks nothing of a document that does not act, so that whoever let it go on is
answered right away. -/

section AtOnce

variable (quiet : ∀ source ∈ session.sources, source.isQuiet = true)

include quiet

theorem readSource_control (run : Run) (frames : List Frame) :
    (session.readSource run frames).control = .answer .nothing frames := by
  cases found : session.sources[run.source]? with
  | none =>
      rw [readSource, found]
      rfl
  | some document =>
      obtain ⟨_, _, _, reads⟩ := readSource_of_quiet quiet found frames
      rw [reads]
      rfl

theorem beginWork_control (run : Run) (frames : List Frame) :
    (session.beginWork run frames).control = .answer .nothing frames := by
  unfold beginWork
  split
  case h_1 => rfl
  case h_2 advanced advance =>
      obtain ⟨_, _, _, _, _, _, rfl⟩ := advanceState?_spec advance
      split
      · exact readSource_control (by exact quiet) run frames
      · rfl

theorem requestLock_control (run : Run) (frames : List Frame) :
    (session.requestLock run frames).control = .answer .nothing frames := by
  unfold requestLock
  split
  · rfl
  · exact beginWork_control quiet run frames

theorem beginNow_control (awaited : Bool) (id : DocumentId) (frames : List Frame) :
    (session.beginNow awaited id frames).control = .answer .nothing frames := by
  cases found : session.registry.find? id with
  | none =>
      rw [beginNow, show session.beginCall.registry.find? id = none from found]
      rfl
  | some entry =>
      rw [beginNow_of_found found]
      exact requestLock_control (by rwa [asked_sources]) _ frames

theorem beginEdit_control (id : DocumentId) (frames : List Frame) :
    ∃ answer, (session.beginEdit id frames).control = .answer answer (.call :: frames) := by
  cases found : session.registry.find? id with
  | none => exact ⟨_, by rw [beginEdit_of_unknown found]; rfl⟩
  | some entry =>
      cases living : session.sources[entry.source]?.filter Source.isAlive with
      | none => exact ⟨_, by rw [beginEdit_of_dead found living]; rfl⟩
      | some document =>
          obtain ⟨_, _, _, edits⟩ := beginEdit_of_quiet quiet found living frames
          exact ⟨_, by rw [edits]; rfl⟩

end AtOnce

/-! ## What does not touch a document -/

/-- Nothing that matters to a document has changed. -/
structure Untouched (id : DocumentId) (before after : Session) : Prop where
  clock : after.clock = before.clock
  settings : after.settings = before.settings
  nextId : after.nextId = before.nextId
  held : after.held = before.held
  entry : after.registry.find? id = before.registry.find? id
  runs : after.runsOf id = before.runsOf id
  notices : after.notices.countP (·.id = id) = before.notices.countP (·.id = id)
  events : after.eventsOf id = before.eventsOf id
  sources : after.sources.map Source.unscripted = before.sources.map Source.unscripted
  quiet : (∀ source ∈ before.sources, source.isQuiet = true) →
    ∀ source ∈ after.sources, source.isQuiet = true
  sound : (∀ cache, before.cache = some cache → cache.Sound) →
    ∀ cache, after.cache = some cache → cache.Sound
  ids : after.registry.ids.Sublist before.registry.ids

namespace Untouched

theorem refl (id : DocumentId) (session : Session) : Untouched id session session where
  clock := rfl
  settings := rfl
  nextId := rfl
  held := rfl
  entry := rfl
  runs := rfl
  notices := rfl
  events := rfl
  sources := rfl
  quiet quiet := quiet
  sound sound := sound
  ids := .refl _

theorem trans (first : Untouched id session middle) (second : Untouched id middle after) :
    Untouched id session after where
  clock := second.clock.trans first.clock
  settings := second.settings.trans first.settings
  nextId := second.nextId.trans first.nextId
  held := second.held.trans first.held
  entry := second.entry.trans first.entry
  runs := second.runs.trans first.runs
  notices := second.notices.trans first.notices
  events := second.events.trans first.events
  sources := second.sources.trans first.sources
  quiet := second.quiet ∘ first.quiet
  sound := second.sound ∘ first.sound
  ids := second.ids.trans first.ids

theorem calm (untouched : Untouched id session after) (calm : session.Calm) : after.Calm :=
  ⟨untouched.held.trans calm.held, untouched.quiet calm.quiet, untouched.sound calm.sound,
    calm.numbered.of_sublist untouched.ids untouched.nextId⟩

theorem mem_ids_iff (untouched : Untouched id session after) :
    id ∈ after.registry.ids ↔ id ∈ session.registry.ids := by
  rw [Registry.mem_ids_iff, Registry.mem_ids_iff, untouched.entry]

/-- The runs of another document may change. -/
theorem of_acts {change : List Run → List Run} (acts : ActsOn other change session after)
    (different : other ≠ id) (frame : after = { session with runs := after.runs }) :
    Untouched id session after := by
  have elsewhere := acts.elsewhere id different.symm
  rw [frame] at elsewhere ⊢
  exact { refl id session with runs := elsewhere }

end Untouched

theorem untouched_count (id : DocumentId) (session : Session) (occurrence : Occurrence) :
    Untouched id session (session.count occurrence) :=
  { Untouched.refl id session with }

theorem untouched_answering (id : DocumentId) (session : Session) (answer : Answer)
    (frames : List Frame) : Untouched id session (session.answering answer frames) :=
  { Untouched.refl id session with }

theorem untouched_beginCall (id : DocumentId) (session : Session) :
    Untouched id session session.beginCall :=
  { Untouched.refl id session with }

theorem untouched_endCall (id : DocumentId) (held : session.held = true) :
    Untouched id session session.endCall := by
  rw [endCall_of_held held]
  exact { Untouched.refl id session with }

theorem untouched_note (event : Event) (elsewhere : event.isAbout id = false)
    (session : Session) : Untouched id session (session.note event) :=
  { Untouched.refl id session with events := by simp [eventsOf, note, elsewhere] }

/-- Sources that were read look as before. -/
theorem untouched_sources {sources : List Source}
    (same : sources.map Source.unscripted = session.sources.map Source.unscripted)
    (quiet : ∀ source ∈ sources, source.isQuiet = true) :
    Untouched id session { session with sources } :=
  { Untouched.refl id session with sources := same, quiet := fun _ => quiet }

theorem untouched_modifyEntry (different : other ≠ id) {change : Entry → Entry}
    (keeps : ∀ entry, (change entry).id = entry.id) :
    Untouched id session (session.modifyEntry other change) :=
  { Untouched.refl id session with
    entry := by rw [modifyEntry, Registry.find?_modify keeps, if_neg different.symm]
    ids := by rw [modifyEntry, Registry.ids_modify keeps] }

theorem untouched_erase (different : other ≠ id) :
    Untouched id session { session with registry := session.registry.erase other } :=
  { Untouched.refl id session with
    entry := by rw [Registry.find?_erase, if_neg different.symm]
    ids := Registry.ids_erase_sublist session.registry other }

theorem untouched_enterPhase (different : run.id ≠ id) (phase : Phase) :
    Untouched id session (session.enterPhase run phase) :=
  .of_acts (session.enterPhase_actsOn run phase) different rfl

theorem untouched_removeRun (different : run.id ≠ id) :
    Untouched id session (session.removeRun run) :=
  .of_acts (session.removeRun_actsOn run) different (removeRun_eq session run)

/-- A run leaves the others and gives the lock of its document free. -/
theorem untouched_parted (different : run.id ≠ id) :
    Untouched id session ((session.withoutRun run).passLock run.id) :=
  (Untouched.of_acts (session.withoutRun_actsOn run) different rfl).trans
    (.of_acts ((session.withoutRun run).passLock_actsOn run.id) different (passLock_eq _ _))

theorem untouched_cancelArmed (different : other ≠ id) :
    Untouched id session (session.cancelArmed other).2 := by
  unfold cancelArmed
  cases (session.registry.find? other).bind (·.armed) with
  | none => exact .refl id session
  | some generation =>
      have disarmed : Untouched id session (session.modifyEntry other fun entry =>
          { entry with armed := none }) := untouched_modifyEntry different fun _ => rfl
      dsimp only
      cases found : session.findRun? other generation with
      | none => exact disarmed
      | some run =>
          have own : run.id = other := congrArg Prod.fst (findRun?_key found)
          exact disarmed.trans (untouched_removeRun (own ▸ different))

/-! ### Edits -/

theorem untouched_supersede (different : other ≠ id) :
    Untouched id session (session.supersede other) := by
  have bumped : Untouched id session (session.modifyEntry other fun entry =>
      { entry with generation := entry.generation + 1 }) :=
    untouched_modifyEntry different fun _ => rfl
  have cancelled := bumped.trans (untouched_cancelArmed different)
  unfold supersede
  dsimp only
  split
  · exact cancelled.trans (untouched_count id _ .superseded)
  · exact cancelled

theorem untouched_setState (different : other ≠ id) (state : DocumentState) :
    Untouched id session (session.setState other state) :=
  untouched_modifyEntry different fun entry => by split <;> rfl

theorem untouched_arm (different : other ≠ id) (source : SourceId) (generation : Nat)
    (config : WorkerConfig) :
    Untouched id session (session.arm other source generation config) := by
  have armed : Untouched id session (session.modifyEntry other fun entry =>
      { entry with armed := some generation }) := untouched_modifyEntry different fun _ => rfl
  exact armed.trans (.of_acts (addRun_actsOn _ _) different rfl)

theorem untouched_applyEdit (different : other ≠ id) (chars : Nat) :
    Untouched id session (session.applyEdit other chars).2 := by
  unfold applyEdit
  split
  · exact .refl id session
  · dsimp only
    split
    · exact ((untouched_supersede different).trans
        (untouched_setState different .idle)).trans (untouched_count id _ .bypassed)
    · exact ((untouched_supersede different).trans
        (untouched_setState different .pending)).trans (untouched_arm different _ _ _)

theorem untouched_release (different : other ≠ id) :
    Untouched id session (session.release other) := by
  unfold release
  split
  · exact ((untouched_cancelArmed different).trans (untouched_erase different)).trans
      (untouched_count id _ .documentClosed)
  · exact .refl id session

theorem untouched_sendNotice (different : other ≠ id) (session : Session) :
    Untouched id session (session.sendNotice other) :=
  { Untouched.refl id session with notices := by simp [sendNotice, different] }

theorem untouched_releaseAndTell (different : other ≠ id) (session : Session) :
    Untouched id session (session.releaseAndTell other) :=
  (untouched_release different).trans
    (untouched_note _ (by simp [Event.isAbout, different]) _)

theorem untouched_beginEdit (different : other ≠ id) (calm : session.Calm)
    (frames : List Frame) : Untouched id session (session.beginEdit other frames) := by
  have counted : Untouched id session (session.beginCall.count .edit) :=
    (untouched_beginCall id session).trans (untouched_count id _ .edit)
  cases found : session.registry.find? other with
  | none =>
      rw [beginEdit_of_unknown found]
      exact (untouched_beginCall id session).trans (untouched_answering id _ _ _)
  | some entry =>
      cases living : session.sources[entry.source]?.filter Source.isAlive with
      | none =>
          rw [beginEdit_of_dead found living]
          exact ((counted.trans (untouched_release different)).trans
            (untouched_sendNotice different _)).trans (untouched_answering id _ _ _)
      | some document =>
          obtain ⟨sources, same, quiet, edits⟩ :=
            beginEdit_of_quiet calm.quiet found living frames
          rw [edits]
          exact ((counted.trans (untouched_sources same quiet)).trans
            (untouched_applyEdit different _)).trans (untouched_answering id _ _ _)

/-! ### Runs -/

theorem untouched_advanceState? {before later : DocumentState} (different : run.id ≠ id)
    (advance : session.advanceState? run before later = some after) :
    Untouched id session after := by
  unfold advanceState? at advance
  split at advance
  · cases advance
  · split at advance
    · cases advance
      exact untouched_modifyEntry different fun _ => rfl
    · cases advance

theorem untouched_settled (different : run.id ≠ id) (before later : DocumentState) :
    Untouched id session ((session.advanceState? run before later).getD session) := by
  cases advance : session.advanceState? run before later with
  | none => exact .refl id session
  | some advanced => exact untouched_advanceState? different advance

theorem untouched_reply (different : other ≠ id) (held : session.held = true)
    (origin : Origin) (result : Answer) :
    Untouched id session (session.reply origin other result) := by
  match origin with
  | .timer => exact .refl id session
  | .call true =>
      have answered : Untouched id session { session with answer := result } :=
        { Untouched.refl id session with }
      exact answered.trans (untouched_endCall id held)
  | .call false =>
      exact (untouched_note _ (by simp [Event.isAbout, different]) session).trans
        (untouched_endCall id held)

theorem untouched_finish (different : run.id ≠ id) (held : session.held = true)
    (result : Answer) : Untouched id session (session.finish run result) := by
  have removed : Untouched id session (session.removeRun run) := untouched_removeRun different
  exact removed.trans (untouched_reply different (removed.held.trans held) run.origin result)

theorem Untouched.finish (untouched : Untouched id session after)
    (different : run.id ≠ id) (held : session.held = true) (result : Answer) :
    Untouched id session (after.finish run result) :=
  untouched.trans (untouched_finish different (untouched.held.trans held) result)

theorem untouched_closeDropped (different : run.id ≠ id) :
    Untouched id session (session.closeDropped run) := by
  have discarded := untouched_count id session .discarded
  unfold closeDropped
  dsimp only
  split
  · exact ((discarded.trans (untouched_erase different)).trans
      (untouched_count id _ .documentClosed)).trans
        (untouched_note _ (by simp [Event.isAbout, different]) _)
  · exact discarded

theorem untouched_finishStale (different : run.id ≠ id) (held : session.held = true) :
    Untouched id session (session.finishStale run) :=
  (untouched_count id session .discarded).finish different held _

theorem untouched_finishDropped (different : run.id ≠ id) (held : session.held = true) :
    Untouched id session (session.finishDropped run) :=
  (untouched_closeDropped different).finish different held _

theorem untouched_finishOversized (different : run.id ≠ id) (held : session.held = true)
    (chars : Nat) : Untouched id session (session.finishOversized run chars) := by
  have settled : Untouched id session _ := untouched_settled different .computing .idle
  have noted := (settled.trans (untouched_count id _ .oversized)).trans
    (untouched_note (.bypass run.id chars) (by simp [Event.isAbout, different]) _)
  exact noted.finish different held _

theorem untouched_finishFailed (different : run.id ≠ id) (held : session.held = true)
    (reason : String) : Untouched id session (session.finishFailed run reason) := by
  have settled : Untouched id session _ := untouched_settled different .computing .idle
  have noted := (settled.trans (untouched_count id _ .computeError)).trans
    (untouched_note (.error run.id (.computationFailed reason))
      (by simp [Event.isAbout, different]) _)
  exact noted.finish different held _

theorem untouched_takeText (different : run.id ≠ id) (held : session.held = true)
    (text : Text) : Untouched id session (session.takeText run text) := by
  unfold takeText
  split
  · exact untouched_finishOversized different held _
  · exact untouched_enterPhase different _

theorem untouched_readSource (different : run.id ≠ id) (calm : session.Calm)
    (frames : List Frame) : Untouched id session (session.readSource run frames) := by
  cases found : session.sources[run.source]? with
  | none =>
      rw [readSource, found]
      exact (untouched_finishDropped different calm.held).trans
        (untouched_answering id _ _ _)
  | some document =>
      obtain ⟨sources, same, quiet, reads⟩ := readSource_of_quiet calm.quiet found frames
      have entered : Untouched id session
          (enterPhase { session with sources } run .reading) :=
        (untouched_sources same quiet).trans (untouched_enterPhase different _)
      rw [reads]
      exact (entered.trans (untouched_takeText (by exact different)
        (entered.held.trans calm.held) _)).trans (untouched_answering id _ _ _)

theorem untouched_beginWork (different : run.id ≠ id) (calm : session.Calm)
    (frames : List Frame) : Untouched id session (session.beginWork run frames) := by
  unfold beginWork
  split
  case h_1 =>
      exact (untouched_finishStale different calm.held).trans (untouched_answering id _ _ _)
  case h_2 advanced advance =>
      have moved := untouched_advanceState? different advance
      split
      · exact moved.trans (untouched_readSource different (moved.calm calm) frames)
      · exact (moved.trans (untouched_finishDropped different
          (moved.held.trans calm.held))).trans (untouched_answering id _ _ _)

theorem untouched_requestLock (different : run.id ≠ id) (calm : session.Calm)
    (frames : List Frame) : Untouched id session (session.requestLock run frames) := by
  unfold requestLock
  split
  · exact (untouched_enterPhase different .waiting).trans (untouched_answering id _ _ _)
  · exact untouched_beginWork different calm frames

theorem untouched_highlightText (id : DocumentId) (session : Session) (text : Text)
    (config : HighlightConfig) :
    Untouched id session (session.highlightText text config).2 := by
  unfold highlightText
  split
  · exact .refl id session
  case h_2 cache here =>
      refine { Untouched.refl id session with sound := fun sound later found => ?_ }
      cases found
      exact (Cache.getOrCompute_sound (sound cache here) _ _ _).2

theorem untouched_complete (different : run.id ≠ id) (text : Text) :
    Untouched id session (session.complete run text) :=
  ((untouched_highlightText id session text run.config.highlight).trans
    (untouched_parted different)).trans
      (untouched_enterPhase (by exact different) _)

theorem untouched_breakOff (different : run.id ≠ id) (reason : String) :
    Untouched id session (session.breakOff run reason) :=
  (untouched_parted different).trans (untouched_enterPhase different _)

theorem untouched_countLookup (id : DocumentId) (session : Session) (lookup : Lookup)
    (nanoseconds : Nat) : Untouched id session (session.countLookup lookup nanoseconds) := by
  cases lookup with
  | uncached | hit => exact untouched_count id session _
  | miss => exact (untouched_count id session _).trans (untouched_count id _ _)

theorem untouched_conclude (different : run.id ≠ id) (held : session.held = true)
    (text : Text) (highlights : Highlights) (lookup : Lookup) (nanoseconds : Nat) :
    Untouched id session (session.conclude run text highlights lookup nanoseconds) := by
  have counted := untouched_countLookup id session lookup nanoseconds
  have heldCounted := counted.held.trans held
  unfold conclude
  dsimp only
  split
  · split
    case h_1 => exact counted.trans (untouched_finishStale different heldCounted)
    case h_2 advanced advance =>
        have moved := counted.trans (untouched_advanceState? different advance)
        have noted := (moved.trans (untouched_count id _ .published)).trans
          (untouched_note (.highlights run.id ⟨run.generation, text, highlights⟩)
            (by simp [Event.isAbout, different]) _)
        exact noted.finish different held _
  · exact counted.trans (untouched_finishDropped different heldCounted)

theorem untouched_poll (different : run.id ≠ id) (calm : session.Calm) (nanoseconds : Nat) :
    Untouched id session (session.poll run nanoseconds) := by
  unfold poll
  split
  · exact untouched_requestLock different calm []
  · exact untouched_beginWork different calm []
  · exact untouched_conclude different calm.held _ _ _ _
  · exact untouched_finishFailed different calm.held _
  · exact .refl id session

theorem untouched_beginNow (different : other ≠ id) (calm : session.Calm) (awaited : Bool)
    (frames : List Frame) : Untouched id session (session.beginNow awaited other frames) := by
  have called := untouched_beginCall id session
  cases found : session.registry.find? other with
  | none =>
      rw [beginNow, show session.beginCall.registry.find? other = none from found]
      exact (called.trans (untouched_reply different (called.held.trans calm.held) _ _)).trans
        (untouched_answering id _ _ _)
  | some entry =>
      rw [beginNow_of_found found]
      let run := Run.ofCall awaited other entry session.settings.workerConfig
      have superseded := (called.trans (untouched_supersede different)).trans
        (untouched_setState different .pending)
      have asked : Untouched id session (session.asked other run) :=
        superseded.trans (.of_acts (addRun_actsOn _ run) (by exact different) rfl)
      exact asked.trans (untouched_requestLock (by exact different) (asked.calm calm) frames)

end Session

end LogTint
