import LogTint.Proofs.Twins
import LogTint.Proofs.Untouched

/-!
# Sessions that match for a document

Two sessions match for a document if they differ in nothing that matters to it: other
documents, their runs, the cache, texts that are hidden from it.  What the scheduler
does for the document keeps them so.  Where a run found its highlights is not compared,
since the caches may differ.
-/

namespace LogTint

namespace Run

variable {runs : List Run}

theorem map_uncached_without (runs : List Run) (id : DocumentId) (generation : Nat) :
    (runs.filter (!·.is id generation)).map uncached =
      (runs.map uncached).filter (!·.is id generation) := by
  rw [List.filter_map]
  rfl

theorem map_uncached_enter (run : Run) (phase : Phase) (runs : List Run) :
    (run.enter phase runs).map uncached = run.enter phase.uncached (runs.map uncached) := by
  rw [enter, enter, List.map_append, map_uncached_without]
  rfl

theorem map_uncached_grant (runs : List Run) :
    (grant runs).map uncached = grant (runs.map uncached) := by
  have first : (runs.map uncached).find? (fun run => decide (run.phase = .waiting)) =
      (runs.find? fun run => decide (run.phase = .waiting)).map uncached := by
    rw [List.find?_map]
    congr 2
    funext run
    change decide (run.phase.uncached = .waiting) = _
    simp only [Phase.uncached_eq_waiting]
  rw [grant, grant, first]
  cases runs.find? fun run => decide (run.phase = .waiting) with
  | none => rfl
  | some run => exact map_uncached_enter run .granted runs

theorem map_uncached_leave (run : Run) (runs : List Run) :
    (run.leave runs).map uncached = run.leave (runs.map uncached) := by
  unfold leave
  dsimp only
  split
  · rw [map_uncached_grant, map_uncached_without]
  · exact map_uncached_without runs run.id run.generation

end Run

namespace Session

/-- The source of a document without its text and its actions. -/
def bareSources (session : Session) : List Source :=
  session.sources.map fun source => source.unscripted.husk

/-- Two sessions in which no document acts differ in nothing that matters to a document.
The texts of hidden sources may differ, and so may the latest answer unless it is heard
and the settings unless both have adopted the same. -/
structure Matches (id : DocumentId) (hidden : SourceId → Bool) (heard adopted : Bool)
    (left right : Session) : Prop where
  held : left.held = true ∧ right.held = true
  quiet : (∀ source ∈ left.sources, source.isQuiet = true) ∧
    ∀ source ∈ right.sources, source.isQuiet = true
  sound : (∀ cache, left.cache = some cache → cache.Sound) ∧
    ∀ cache, right.cache = some cache → cache.Sound
  numbered : left.Numbered ∧ right.Numbered
  clock : right.clock = left.clock
  nextId : right.nextId = left.nextId
  entry : right.registry.find? id = left.registry.find? id
  runs : (right.runsOf id).map Run.uncached = (left.runsOf id).map Run.uncached
  notices : right.notices.countP (·.id = id) = left.notices.countP (·.id = id)
  events : right.eventsOf id = left.eventsOf id
  husks : right.bareSources = left.bareSources
  shown : ∀ index, hidden index = false →
    right.sources[index]?.map Source.unscripted = left.sources[index]?.map Source.unscripted
  answer : heard = true → right.answer = left.answer
  settings : adopted = true → right.settings = left.settings

namespace Matches

variable {id : DocumentId} {hidden : SourceId → Bool} {heard adopted : Bool}
  {left middle right after : Session} {run : Run}

theorem calm (same : Matches id hidden heard adopted left right) : left.Calm :=
  ⟨same.held.1, same.quiet.1, same.sound.1, same.numbered.1⟩

theorem calmThere (same : Matches id hidden heard adopted left right) : right.Calm :=
  ⟨same.held.2, same.quiet.2, same.sound.2, same.numbered.2⟩

theorem of_calm (calm : left.Calm) : Matches id hidden heard adopted left left where
  held := ⟨calm.held, calm.held⟩
  quiet := ⟨calm.quiet, calm.quiet⟩
  sound := ⟨calm.sound, calm.sound⟩
  numbered := ⟨calm.numbered, calm.numbered⟩
  clock := rfl
  nextId := rfl
  entry := rfl
  runs := rfl
  notices := rfl
  events := rfl
  husks := rfl
  shown _ _ := rfl
  answer _ := rfl
  settings _ := rfl

theorem symm (same : Matches id hidden heard adopted left right) :
    Matches id hidden heard adopted right left where
  held := same.held.symm
  quiet := same.quiet.symm
  sound := same.sound.symm
  numbered := same.numbered.symm
  clock := same.clock.symm
  nextId := same.nextId.symm
  entry := same.entry.symm
  runs := same.runs.symm
  notices := same.notices.symm
  events := same.events.symm
  husks := same.husks.symm
  shown index seen := (same.shown index seen).symm
  answer hears := (same.answer hears).symm
  settings adopts := (same.settings adopts).symm

theorem trans (first : Matches id hidden heard adopted left middle)
    (second : Matches id hidden heard adopted middle right) :
    Matches id hidden heard adopted left right where
  held := ⟨first.held.1, second.held.2⟩
  quiet := ⟨first.quiet.1, second.quiet.2⟩
  sound := ⟨first.sound.1, second.sound.2⟩
  numbered := ⟨first.numbered.1, second.numbered.2⟩
  clock := second.clock.trans first.clock
  nextId := second.nextId.trans first.nextId
  entry := second.entry.trans first.entry
  runs := second.runs.trans first.runs
  notices := second.notices.trans first.notices
  events := second.events.trans first.events
  husks := second.husks.trans first.husks
  shown index seen := (second.shown index seen).trans (first.shown index seen)
  answer hears := (second.answer hears).trans (first.answer hears)
  settings adopts := (second.settings adopts).trans (first.settings adopts)

/-- Sessions match also if less is compared. -/
theorem unheard (same : Matches id hidden heard adopted left right) :
    Matches id hidden false adopted left right :=
  { same with answer := nofun }

theorem relax {fewer : Bool} (same : Matches id hidden heard adopted left right)
    (less : fewer = true → adopted = true) : Matches id hidden heard fewer left right :=
  { same with settings := fun adopts => same.settings (less adopts) }

theorem weaken (same : Matches id hidden heard true left right) :
    Matches id hidden heard adopted left right :=
  same.relax fun _ => rfl

/-- What does not touch the document leaves a match. -/
theorem of_untouched (untouched : Untouched id left after) (calm : left.Calm) :
    Matches id hidden false adopted left after where
  held := ⟨calm.held, (untouched.calm calm).held⟩
  quiet := ⟨calm.quiet, (untouched.calm calm).quiet⟩
  sound := ⟨calm.sound, (untouched.calm calm).sound⟩
  numbered := ⟨calm.numbered, (untouched.calm calm).numbered⟩
  clock := untouched.clock
  nextId := untouched.nextId
  entry := untouched.entry
  runs := congrArg (List.map Run.uncached) untouched.runs
  notices := untouched.notices
  events := untouched.events
  husks := by
    have sources := congrArg (List.map Source.husk) untouched.sources
    rwa [List.map_map, List.map_map] at sources
  shown index _ := by
    rw [← List.getElem?_map, ← List.getElem?_map, untouched.sources]
  answer := nofun
  settings _ := untouched.settings

theorem untouched (same : Matches id hidden heard adopted left right)
    (untouched : Untouched id left after) : Matches id hidden false adopted after right :=
  (of_untouched untouched same.calm).symm.trans same.unheard

theorem untouchedThere (same : Matches id hidden heard adopted left right)
    (untouched : Untouched id right after) : Matches id hidden false adopted left after :=
  same.unheard.trans (of_untouched untouched same.calmThere)

/-! ### What is found in both -/

theorem isAlive (same : Matches id hidden heard adopted left right) (source : SourceId) :
    right.isAlive source = left.isAlive source := by
  have bare := congrArg (fun sources => sources[source]?.map Source.isAlive) same.husks
  simp only [bareSources, List.getElem?_map, Option.map_map] at bare
  unfold Session.isAlive
  cases found : left.sources[source]? <;> cases foundThere : right.sources[source]? <;>
    simp_all

theorem findRun? (same : Matches id hidden heard adopted left right) (generation : Nat) :
    (right.findRun? id generation).map Run.uncached =
      (left.findRun? id generation).map Run.uncached := by
  have mapped : ∀ runs : List Run, (runs.find? (·.is id generation)).map Run.uncached =
      (runs.map Run.uncached).find? (·.is id generation) := by
    intro runs
    rw [List.find?_map]
    rfl
  rw [findRun?_eq, findRun?_eq, mapped, mapped, same.runs]

/-- A run of the document has its like in the other session. -/
theorem exists_run (same : Matches id hidden heard adopted left right) {generation : Nat}
    (found : left.findRun? id generation = some run) :
    ∃ other, right.findRun? id generation = some other ∧ other.uncached = run.uncached := by
  have both := same.findRun? generation
  rw [found, Option.map_some] at both
  exact Option.map_eq_some_iff.mp both

theorem isLocked (same : Matches id hidden heard adopted left right) :
    right.isLocked id = left.isLocked id := by
  have mapped : ∀ runs : List Run, (runs.any fun run => run.phase.holdsLock) =
      (runs.map Run.uncached).any fun run => run.phase.holdsLock := by
    intro runs
    rw [List.any_map]
    congr 1
    funext run
    exact (Phase.uncached_holdsLock run.phase).symm
  rw [isLocked_eq, isLocked_eq, mapped (right.runsOf id), same.runs, ← mapped]

/-- A source that is not hidden is read alike. -/
theorem source (same : Matches id hidden heard adopted left right) {index : SourceId}
    (seen : hidden index = false) :
    Option.Rel (fun source other => other.unscripted = source.unscripted)
      left.sources[index]? right.sources[index]? := by
  have shown := same.shown index seen
  cases found : left.sources[index]? <;> cases foundThere : right.sources[index]? <;>
    simp_all

/-! ### Small changes -/

/-- Sessions that are changed under the same condition match if they do in either
case. -/
theorem ite {leftThen rightThen leftElse rightElse : Session} {here there : Prop}
    [Decidable here] [Decidable there] (condition : there ↔ here)
    (holding : Matches id hidden heard adopted leftThen rightThen)
    (failing : Matches id hidden heard adopted leftElse rightElse) :
    Matches id hidden heard adopted (if here then leftThen else leftElse)
      (if there then rightThen else rightElse) := by
  by_cases holds : here
  · rwa [if_pos holds, if_pos (condition.mpr holds)]
  · rwa [if_neg holds, if_neg (mt condition.mp holds)]

theorem count (same : Matches id hidden heard adopted left right)
    (occurrence other : Occurrence) :
    Matches id hidden heard adopted (left.count occurrence) (right.count other) :=
  { same with }

theorem note (same : Matches id hidden heard adopted left right) (event : Event) :
    Matches id hidden heard adopted (left.note event) (right.note event) :=
  { same with
    events := by
      have events := same.events
      rw [eventsOf, eventsOf] at events
      simp [eventsOf, Session.note, events, same.clock] }

theorem answering (same : Matches id hidden heard adopted left right)
    (answer other : Answer) (frames framesThere : List Frame) :
    Matches id hidden heard adopted (left.answering answer frames)
      (right.answering other framesThere) :=
  { same with }

theorem withAnswer (same : Matches id hidden heard adopted left right) (answer : Answer) :
    Matches id hidden heard adopted { left with answer } { right with answer } :=
  { same with answer := fun _ => rfl }

theorem beginCall (same : Matches id hidden heard adopted left right) :
    Matches id hidden heard adopted left.beginCall right.beginCall :=
  { same with }

theorem endCall (same : Matches id hidden heard adopted left right) :
    Matches id hidden heard adopted left.endCall right.endCall := by
  rw [endCall_of_held same.held.1, endCall_of_held same.held.2]
  exact { same with }

theorem withSources (same : Matches id hidden heard adopted left right)
    {sources sourcesThere : List Source}
    (read : sources.map Source.unscripted = left.sources.map Source.unscripted)
    (readThere : sourcesThere.map Source.unscripted = right.sources.map Source.unscripted)
    (quiet : ∀ source ∈ sources, source.isQuiet = true)
    (quietThere : ∀ source ∈ sourcesThere, source.isQuiet = true) :
    Matches id hidden heard adopted { left with sources }
      { right with sources := sourcesThere } := by
  have changed := (same.untouched (untouched_sources read quiet)).untouchedThere
    (untouched_sources readThere quietThere)
  exact { changed with answer := same.answer }

theorem modifyEntry (same : Matches id hidden heard adopted left right)
    {change : Entry → Entry} (keeps : ∀ entry, (change entry).id = entry.id) :
    Matches id hidden heard adopted (left.modifyEntry id change)
      (right.modifyEntry id change) :=
  { same with
    entry := by
      rw [Session.modifyEntry, Session.modifyEntry, Registry.find?_modify keeps,
        Registry.find?_modify keeps, same.entry]
    numbered := by
      have numbered := same.numbered
      rwa [Numbered, Numbered, ← Registry.ids_modify keeps left.registry id,
        ← Registry.ids_modify keeps right.registry id] at numbered }

theorem erase (same : Matches id hidden heard adopted left right) :
    Matches id hidden heard adopted { left with registry := left.registry.erase id }
      { right with registry := right.registry.erase id } :=
  { same with
    entry := by rw [Registry.find?_erase, Registry.find?_erase, same.entry]
    numbered := ⟨same.numbered.1.of_sublist (left.registry.ids_erase_sublist id) rfl,
      same.numbered.2.of_sublist (right.registry.ids_erase_sublist id) rfl⟩ }

/-! ### Runs -/

/-- The runs of the document may be changed alike. -/
theorem acts {change changeThere : List Run → List Run} {leftAfter rightAfter : Session}
    (same : Matches id hidden heard adopted left right)
    (acts : ActsOn id change left leftAfter)
    (actsThere : ActsOn id changeThere right rightAfter)
    (frame : leftAfter = { left with runs := leftAfter.runs })
    (frameThere : rightAfter = { right with runs := rightAfter.runs })
    (changes : (changeThere (right.runsOf id)).map Run.uncached =
      (change (left.runsOf id)).map Run.uncached) :
    Matches id hidden heard adopted leftAfter rightAfter := by
  have runs : (rightAfter.runsOf id).map Run.uncached =
      (leftAfter.runsOf id).map Run.uncached := by
    rw [acts.here, actsThere.here, changes]
  rw [frame, frameThere] at runs ⊢
  exact { same with runs := runs }

theorem enterPhase (same : Matches run.id hidden heard adopted left right)
    {phase phaseThere : Phase} (alike : phaseThere.uncached = phase.uncached) :
    Matches run.id hidden heard adopted (left.enterPhase run phase)
      (right.enterPhase run phaseThere) := by
  refine same.acts (left.enterPhase_actsOn run phase)
    (right.enterPhase_actsOn run phaseThere) rfl rfl ?_
  rw [Run.map_uncached_enter, Run.map_uncached_enter, same.runs, alike]

theorem addRun (same : Matches run.id hidden heard adopted left right) :
    Matches run.id hidden heard adopted { left with runs := left.runs ++ [run] }
      { right with runs := right.runs ++ [run] } := by
  refine same.acts (left.addRun_actsOn run) (right.addRun_actsOn run) rfl rfl ?_
  rw [List.map_append, List.map_append, same.runs]

theorem removeRun (same : Matches run.id hidden heard adopted left right) :
    Matches run.id hidden heard adopted (left.removeRun run) (right.removeRun run) := by
  refine same.acts (left.removeRun_actsOn run) (right.removeRun_actsOn run)
    (removeRun_eq left run) (removeRun_eq right run) ?_
  rw [Run.map_uncached_leave, Run.map_uncached_leave, same.runs]

/-- A run gives the lock of its document free. -/
theorem parted (same : Matches run.id hidden heard adopted left right) :
    Matches run.id hidden heard adopted ((left.withoutRun run).passLock run.id)
      ((right.withoutRun run).passLock run.id) := by
  have without : Matches run.id hidden heard adopted (left.withoutRun run)
      (right.withoutRun run) := by
    refine same.acts (left.withoutRun_actsOn run) (right.withoutRun_actsOn run) rfl rfl ?_
    rw [Run.map_uncached_without, Run.map_uncached_without, same.runs]
  refine without.acts (passLock_actsOn _ run.id) (passLock_actsOn _ run.id)
    (passLock_eq _ run.id) (passLock_eq _ run.id) ?_
  rw [Run.map_uncached_grant, Run.map_uncached_grant, without.runs]

theorem cancelArmed (same : Matches id hidden heard adopted left right) :
    (right.cancelArmed id).1 = (left.cancelArmed id).1 ∧
      Matches id hidden heard adopted (left.cancelArmed id).2 (right.cancelArmed id).2 := by
  rw [Session.cancelArmed, Session.cancelArmed, same.entry]
  cases (left.registry.find? id).bind (·.armed) with
  | none => exact ⟨rfl, same⟩
  | some generation =>
      have disarmed : Matches id hidden heard adopted
          (left.modifyEntry id fun entry => { entry with armed := none })
          (right.modifyEntry id fun entry => { entry with armed := none }) :=
        same.modifyEntry fun _ => rfl
      have both := same.findRun? generation
      dsimp only
      cases found : left.findRun? id generation with
      | none =>
          rw [found, Option.map_none, Option.map_eq_none_iff] at both
          rw [both]
          exact ⟨rfl, disarmed⟩
      | some run =>
          obtain ⟨other, foundThere, alike⟩ := same.exists_run found
          obtain rfl : run.id = id := congrArg Prod.fst (findRun?_key found)
          rw [foundThere]
          refine ⟨rfl, ?_⟩
          have removed := disarmed.removeRun
          rw [← removeRun_uncached (right.modifyEntry run.id _) run, ← alike,
            removeRun_uncached] at removed
          exact removed

end Matches

end Session

end LogTint
