import LogTint.Proofs.Matching
import LogTint.Proofs.TwinMoves

/-!
# Work for a document keeps sessions matching

Edits of a document, calls for its highlights and its runs do the same to sessions that
match for it.  The text of a document is read where its source is not hidden, and the
settings matter to edits and calls alone: a run has its own.
-/

namespace LogTint

/-- Runs that are the same without a cache are the same, unless they have computed. -/
theorem Run.eq_or_computed {run other : Run} (alike : other.uncached = run.uncached) :
    other = run ∨ ∃ text highlights lookup lookupThere,
      run.phase = .computed text highlights lookup ∧
        other.phase = .computed text highlights lookupThere := by
  obtain ⟨_, _, _, _, _, phase⟩ := run
  obtain ⟨_, _, _, _, _, phaseThere⟩ := other
  simp only [uncached, Run.mk.injEq] at alike ⊢
  obtain ⟨_, _, _, _, _, phases⟩ := alike
  cases phase <;> cases phaseThere <;> simp_all [Phase.uncached]

namespace Session

/-- A sound cache answers what would have been computed. -/
theorem Calm.highlightText {session : Session} (calm : session.Calm) (text : Text)
    (config : HighlightConfig) :
    (session.highlightText text config).1.1 = Highlights.compute text config := by
  unfold Session.highlightText
  split
  · rfl
  case h_2 cache here => exact (Cache.getOrCompute_sound (calm.sound cache here) _ _ _).1

namespace Matches

variable {id : DocumentId} {hidden : SourceId → Bool} {heard adopted : Bool}
  {left right : Session} {run : Run}

/-! ### Edits -/

theorem supersede (same : Matches id hidden heard adopted left right) :
    Matches id hidden heard adopted (left.supersede id) (right.supersede id) := by
  have bumped : Matches id hidden heard adopted
      (left.modifyEntry id fun entry => { entry with generation := entry.generation + 1 })
      (right.modifyEntry id fun entry => { entry with generation := entry.generation + 1 }) :=
    same.modifyEntry fun _ => rfl
  obtain ⟨cancelled, disarmed⟩ := bumped.cancelArmed
  exact ite (Bool.coe_iff_coe.mpr cancelled) (disarmed.count _ _) disarmed

theorem setState (same : Matches id hidden heard adopted left right)
    (state : DocumentState) :
    Matches id hidden heard adopted (left.setState id state) (right.setState id state) :=
  same.modifyEntry fun entry => by split <;> rfl

theorem arm (same : Matches id hidden heard adopted left right) (source : SourceId)
    (generation : Nat) (config : WorkerConfig) :
    Matches id hidden heard adopted (left.arm id source generation config)
      (right.arm id source generation config) := by
  have armed : Matches id hidden heard adopted
      (left.modifyEntry id fun entry => { entry with armed := some generation })
      (right.modifyEntry id fun entry => { entry with armed := some generation }) :=
    same.modifyEntry fun _ => rfl
  let run (clock : Nat) : Run :=
    ⟨id, generation, source, config, .timer, .sleeping (clock + config.debounce)⟩
  have added : Matches id hidden heard adopted (left.arm id source generation config) _ :=
    @addRun hidden heard adopted _ _ (run left.clock) armed
  rwa [show run left.clock = run right.clock by rw [same.clock]] at added

theorem applyEdit (same : Matches id hidden heard true left right) (chars : Nat) :
    (right.applyEdit id chars).1 = (left.applyEdit id chars).1 ∧
      Matches id hidden heard true (left.applyEdit id chars).2
        (right.applyEdit id chars).2 := by
  rw [Session.applyEdit, Session.applyEdit, same.entry, same.settings rfl]
  cases left.registry.find? id with
  | none => exact ⟨rfl, same⟩
  | some entry =>
      dsimp only
      split
      · exact ⟨rfl, (same.supersede.setState .idle).count _ _⟩
      · exact ⟨rfl, (same.supersede.setState .pending).arm _ _ _⟩

theorem release (same : Matches id hidden heard adopted left right) :
    Matches id hidden heard adopted (left.release id) (right.release id) := by
  rw [Session.release, Session.release, Registry.contains, Registry.contains, same.entry]
  split
  · exact same.cancelArmed.2.erase.count _ _
  · exact same

theorem sendNotice (same : Matches id hidden heard adopted left right) :
    Matches id hidden heard adopted (left.sendNotice id) (right.sendNotice id) :=
  { same with notices := by simp [Session.sendNotice, same.notices] }

/-- An edit of the document is answered alike and does the same. -/
theorem beginEdit (same : Matches id hidden heard true left right)
    (seen : ∀ entry, left.registry.find? id = some entry → hidden entry.source = false)
    (frames framesThere : List Frame) :
    ∃ answer edited editedThere,
      left.beginEdit id frames = edited.answering answer (.call :: frames) ∧
        right.beginEdit id framesThere =
          editedThere.answering answer (.call :: framesThere) ∧
        Matches id hidden heard true edited editedThere := by
  have counted := same.beginCall.count .edit .edit
  cases found : left.registry.find? id with
  | none =>
      have unknown : right.registry.find? id = none := same.entry.trans found
      exact ⟨_, _, _, beginEdit_of_unknown found frames,
        beginEdit_of_unknown unknown framesThere, same.beginCall⟩
  | some entry =>
      have foundThere : right.registry.find? id = some entry := same.entry.trans found
      have sources := same.source (seen entry found)
      cases living : left.sources[entry.source]?.filter Source.isAlive with
      | none =>
          have dead : right.sources[entry.source]?.filter Source.isAlive = none := by
            have gone := same.isAlive entry.source
            rw [isAlive_eq, isAlive_eq, living] at gone
            exact Option.not_isSome_iff_eq_none.mp (by simp [gone])
          exact ⟨_, _, _, beginEdit_of_dead found living frames,
            beginEdit_of_dead foundThere dead framesThere, counted.release.sendNotice⟩
      | some document =>
          obtain ⟨isSource, isAlive⟩ := filter_isAlive_eq_some living
          rw [isSource] at sources
          generalize isSourceThere : right.sources[entry.source]? = there at sources
          cases sources with
          | @some _ other bare =>
              have livingThere :
                  right.sources[entry.source]?.filter Source.isAlive = some other := by
                rw [isSourceThere, Option.filter_some, if_pos]
                rwa [← Source.unscripted_isAlive, bare, Source.unscripted_isAlive]
              have length : other.length = document.length := by
                rw [← Source.unscripted_length, bare, Source.unscripted_length]
              obtain ⟨sources, read, quiet, edits⟩ :=
                beginEdit_of_quiet same.quiet.1 found living frames
              obtain ⟨sourcesThere, readThere, quietThere, editsThere⟩ :=
                beginEdit_of_quiet same.quiet.2 foundThere livingThere framesThere
              have measured := counted.withSources read readThere quiet quietThere
              obtain ⟨answer, edited⟩ := measured.applyEdit document.length
              rw [length, answer] at editsThere
              exact ⟨_, _, _, edits, editsThere, edited⟩

/-! ### Runs -/

theorem advanceState? (same : Matches run.id hidden heard adopted left right)
    (before after : DocumentState) :
    Option.Rel (Matches run.id hidden heard adopted)
      (left.advanceState? run before after) (right.advanceState? run before after) := by
  rw [Session.advanceState?, Session.advanceState?, same.entry]
  cases left.registry.find? run.id with
  | none => exact .none
  | some entry =>
      dsimp only
      split
      · exact .some (same.modifyEntry fun _ => rfl)
      · exact .none

/-- A run that may be overtaken moves the document on or leaves it alone. -/
theorem settled (same : Matches run.id hidden heard adopted left right)
    (before after : DocumentState) :
    Matches run.id hidden heard adopted
      ((left.advanceState? run before after).getD left)
      ((right.advanceState? run before after).getD right) := by
  have advance := same.advanceState? before after
  generalize left.advanceState? run before after = first,
    right.advanceState? run before after = second at advance
  cases advance with
  | none => exact same
  | some advanced => exact advanced

theorem reply (same : Matches id hidden heard adopted left right) (origin : Origin)
    (result : Answer) :
    Matches id hidden heard adopted (left.reply origin id result)
      (right.reply origin id result) := by
  match origin with
  | .timer => exact same
  | .call true => exact (same.withAnswer result).endCall
  | .call false => exact (same.note _).endCall

theorem finish (same : Matches run.id hidden heard adopted left right) (result : Answer) :
    Matches run.id hidden heard adopted (left.finish run result)
      (right.finish run result) :=
  same.removeRun.reply run.origin result

theorem closeDropped (same : Matches run.id hidden heard adopted left right) :
    Matches run.id hidden heard adopted (left.closeDropped run)
      (right.closeDropped run) := by
  have discarded := same.count .discarded .discarded
  refine ite ?_ ((discarded.erase.count _ _).note _) discarded
  rw [Registry.contains, Registry.contains, discarded.entry]

theorem finishStale (same : Matches run.id hidden heard adopted left right) :
    Matches run.id hidden heard adopted (left.finishStale run) (right.finishStale run) :=
  (same.count _ _).finish _

theorem finishDropped (same : Matches run.id hidden heard adopted left right) :
    Matches run.id hidden heard adopted (left.finishDropped run)
      (right.finishDropped run) :=
  same.closeDropped.finish _

theorem finishOversized (same : Matches run.id hidden heard adopted left right)
    (chars : Nat) :
    Matches run.id hidden heard adopted (left.finishOversized run chars)
      (right.finishOversized run chars) :=
  (((same.settled .computing .idle).count _ _).note _).finish _

theorem finishFailed (same : Matches run.id hidden heard adopted left right)
    (reason : String) :
    Matches run.id hidden heard adopted (left.finishFailed run reason)
      (right.finishFailed run reason) :=
  (((same.settled .computing .idle).count _ _).note _).finish _

theorem takeText (same : Matches run.id hidden heard adopted left right) (text : Text) :
    Matches run.id hidden heard adopted (left.takeText run text)
      (right.takeText run text) :=
  ite .rfl (same.finishOversized _) (same.enterPhase rfl)

theorem readSource (same : Matches run.id hidden heard adopted left right)
    (seen : hidden run.source = false) (frames framesThere : List Frame) :
    Matches run.id hidden heard adopted (left.readSource run frames)
      (right.readSource run framesThere) := by
  have sources := same.source seen
  generalize found : left.sources[run.source]? = source,
    foundThere : right.sources[run.source]? = there at sources
  cases sources with
  | none =>
      rw [Session.readSource, Session.readSource, found, foundThere]
      exact same.finishDropped.answering _ _ _ _
  | @some document other bare =>
      obtain ⟨sources, read, quiet, reads⟩ :=
        readSource_of_quiet same.quiet.1 found frames
      obtain ⟨sourcesThere, readThere, quietThere, readsThere⟩ :=
        readSource_of_quiet same.quiet.2 foundThere framesThere
      have text : other.text = document.text := by
        rw [← Source.unscripted_text, bare, Source.unscripted_text]
      have entered : Matches run.id hidden heard adopted
          (Session.enterPhase { left with sources } run .reading)
          (Session.enterPhase { right with sources := sourcesThere } run .reading) :=
        enterPhase (same.withSources read readThere quiet quietThere) rfl
      have taken := @takeText hidden heard adopted _ _ { run with phase := .reading } entered
      rw [reads, readsThere, text]
      exact (taken _).answering _ _ _ _

theorem beginWork (same : Matches run.id hidden heard adopted left right)
    (seen : ∀ entry, left.registry.find? run.id = some entry → hidden run.source = false)
    (frames framesThere : List Frame) :
    Matches run.id hidden heard adopted (left.beginWork run frames)
      (right.beginWork run framesThere) := by
  have seen : ∀ advanced, left.advanceState? run .pending .computing = some advanced →
      hidden run.source = false := by
    intro advanced advance
    obtain ⟨entry, _, found, _⟩ := advanceState?_spec advance
    exact seen entry found
  have advance := same.advanceState? .pending .computing
  rw [Session.beginWork, Session.beginWork]
  generalize left.advanceState? run .pending .computing = first,
    right.advanceState? run .pending .computing = second at advance seen
  cases advance with
  | none => exact same.finishStale.answering _ _ _ _
  | some advanced =>
      exact ite (by rw [advanced.isAlive]) (advanced.readSource (seen _ rfl) _ _)
        (advanced.finishDropped.answering _ _ _ _)

theorem requestLock (same : Matches run.id hidden heard adopted left right)
    (seen : ∀ entry, left.registry.find? run.id = some entry → hidden run.source = false)
    (frames framesThere : List Frame) :
    Matches run.id hidden heard adopted (left.requestLock run frames)
      (right.requestLock run framesThere) :=
  ite (by rw [same.isLocked]) ((same.enterPhase rfl).answering _ _ _ _)
    (same.beginWork seen _ _)

theorem highlightText (same : Matches id hidden heard adopted left right) (text : Text)
    (config : HighlightConfig) :
    (right.highlightText text config).1.1 = (left.highlightText text config).1.1 ∧
      Matches id hidden heard adopted (left.highlightText text config).2
        (right.highlightText text config).2 := by
  have looked := (same.untouched (untouched_highlightText id left text config)).untouchedThere
    (untouched_highlightText id right text config)
  obtain ⟨cache, found⟩ := highlightText_eq left text config
  obtain ⟨cacheThere, foundThere⟩ := highlightText_eq right text config
  refine ⟨?_, { looked with answer := ?_ }⟩
  · rw [same.calm.highlightText, same.calmThere.highlightText]
  · rw [found, foundThere]
    exact same.answer

/-- A computation ends alike, wherever its highlights were found. -/
theorem complete (same : Matches run.id hidden heard adopted left right) (text : Text) :
    Matches run.id hidden heard adopted (left.complete run text)
      (right.complete run text) := by
  obtain ⟨highlights, looked⟩ := same.highlightText text run.config.highlight
  have alike : (right.computedPhase run text).uncached =
      (left.computedPhase run text).uncached :=
    congrArg (Phase.computed text · .uncached) highlights
  exact looked.parted.enterPhase alike

theorem breakOff (same : Matches run.id hidden heard adopted left right)
    (reason : String) :
    Matches run.id hidden heard adopted (left.breakOff run reason)
      (right.breakOff run reason) :=
  same.parted.enterPhase rfl

theorem countLookup (same : Matches id hidden heard adopted left right)
    (lookup lookupThere : Lookup) (nanoseconds nanosecondsThere : Nat) :
    Matches id hidden heard adopted (left.countLookup lookup nanoseconds)
      (right.countLookup lookupThere nanosecondsThere) := by
  have keeps : ∀ (session : Session) (lookup : Lookup) (nanoseconds : Nat), ∃ metrics,
      session.countLookup lookup nanoseconds = { session with metrics } := by
    intro session lookup nanoseconds
    cases lookup <;> exact ⟨_, rfl⟩
  obtain ⟨metrics, counted⟩ := keeps left lookup nanoseconds
  obtain ⟨metricsThere, countedThere⟩ := keeps right lookupThere nanosecondsThere
  rw [counted, countedThere]
  exact { same with }

theorem conclude (same : Matches run.id hidden heard adopted left right) (text : Text)
    (highlights : Highlights) (lookup lookupThere : Lookup)
    (nanoseconds nanosecondsThere : Nat) :
    Matches run.id hidden heard adopted
      (left.conclude run text highlights lookup nanoseconds)
      (right.conclude run text highlights lookupThere nanosecondsThere) := by
  have counted := same.countLookup lookup lookupThere nanoseconds nanosecondsThere
  refine ite (by rw [counted.isAlive]) ?_ counted.finishDropped
  have advance := counted.advanceState? .computing .idle
  generalize (left.countLookup lookup nanoseconds).advanceState? run .computing .idle =
    first, (right.countLookup lookupThere nanosecondsThere).advanceState? run .computing
      .idle = second at advance
  cases advance with
  | none => exact counted.finishStale
  | some advanced => exact ((advanced.count _ _).note _).finish _

/-- A run of the document goes on alike. -/
theorem poll (same : Matches run.id hidden heard adopted left right)
    (seen : ∀ entry, left.registry.find? run.id = some entry → hidden run.source = false)
    {other : Run} (alike : other.uncached = run.uncached)
    (nanoseconds nanosecondsThere : Nat) :
    Matches run.id hidden heard adopted (left.poll run nanoseconds)
      (right.poll other nanosecondsThere) := by
  rcases Run.eq_or_computed alike with
    rfl | ⟨text, highlights, lookup, lookupThere, phase, phaseThere⟩
  · rw [Session.poll, Session.poll]
    cases other.phase with
    | due => exact same.requestLock seen [] []
    | granted => exact same.beginWork seen [] []
    | computed text highlights lookup =>
        exact same.conclude text highlights lookup lookup nanoseconds nanosecondsThere
    | failed reason => exact same.finishFailed reason
    | sleeping | waiting | reading | computing => exact same
  · rw [Session.poll, Session.poll, phase, phaseThere]
    have concluded := same.conclude text highlights lookup lookupThere nanoseconds
      nanosecondsThere
    rw [← conclude_uncached right, ← alike, conclude_uncached] at concluded
    exact concluded

/-! ### Calls -/

/-- A call to highlight the document is carried out alike. -/
theorem beginNow (same : Matches id hidden heard true left right)
    (seen : ∀ entry, left.registry.find? id = some entry → hidden entry.source = false)
    (awaited : Bool) (frames framesThere : List Frame) :
    Matches id hidden heard true (left.beginNow awaited id frames)
      (right.beginNow awaited id framesThere) := by
  cases found : left.registry.find? id with
  | none =>
      have called := same.beginCall.reply (.call awaited) (.failure (.documentNotFound id))
      rw [Session.beginNow, show left.beginCall.registry.find? id = none from found,
        Session.beginNow, show right.beginCall.registry.find? id = none from
          same.entry.trans found]
      exact called.answering _ _ _ _
  | some entry =>
      rw [beginNow_of_found found, beginNow_of_found (same.entry.trans found),
        same.settings rfl]
      have renewed := same.beginCall.supersede.setState .pending
      have asked := @addRun hidden heard true _ _
        (.ofCall awaited id entry left.settings.workerConfig) renewed
      exact asked.requestLock (fun _ _ => seen entry found) _ _

end Matches

end Session

end LogTint
