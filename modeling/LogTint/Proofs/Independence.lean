import LogTint.Proofs.StrandTime
import Mathlib.Data.List.Infix

/-!
# Documents do not disturb one another

What the host does with one document shows nowhere in what it sees of another.
Two runs that differ only in such steps lead the strand of the other document
the same way, up to texts that its scheduler never reads.  Here the host takes each
step after the one before has come to its end, and may give up the scheduler.
-/

namespace LogTint

/-- Whether a step is none of the business of a document: it names another one,
or it changes a text that is hidden from it. -/
def Step.Spares (id : DocumentId) (hidden : SourceId → Prop) : Step → Prop
  | .act (.edit other) | .act (.startNow other) | .act (.unregister other)
  | .act (.info other) | .act (.contains other) | .highlightNow other => other ≠ id
  | .act (.replace source _) | .act (.append source _) => hidden source
  | _ => False

namespace Strand

/-- The strands differ in nothing but hidden texts. -/
structure Alike (hidden : SourceId → Prop) (left right : Strand) : Prop where
  id : left.id = right.id
  clock : left.clock = right.clock
  husks : left.sources.map Source.husk = right.sources.map Source.husk
  shown : ∀ source, ¬hidden source → left.sources[source]? = right.sources[source]?
  settings : left.settings = right.settings
  nextId : left.nextId = right.nextId
  held : left.held = right.held
  tracked? : left.tracked? = right.tracked?
  events : left.events = right.events

/-- Nothing is hidden that the scheduler reads for the document. -/
def Watches (hidden : SourceId → Prop) (strand : Strand) : Prop :=
  ∀ tracked, strand.tracked? = some tracked → ¬hidden tracked.source

namespace Alike

variable {hidden : SourceId → Prop} {left right : Strand}

theorem refl (strand : Strand) : Alike hidden strand strand :=
  ⟨rfl, rfl, rfl, fun _ _ => rfl, rfl, rfl, rfl, rfl, rfl⟩

theorem trans {middle : Strand} (first : Alike hidden left middle)
    (second : Alike hidden middle right) : Alike hidden left right where
  id := first.id.trans second.id
  clock := first.clock.trans second.clock
  husks := first.husks.trans second.husks
  shown source isShown := (first.shown source isShown).trans (second.shown source isShown)
  settings := first.settings.trans second.settings
  nextId := first.nextId.trans second.nextId
  held := first.held.trans second.held
  tracked? := first.tracked?.trans second.tracked?
  events := first.events.trans second.events

theorem living? (alike : Alike hidden left right) {source : SourceId}
    (shown : ¬hidden source) : left.living? source = right.living? source := by
  rw [Strand.living?, Strand.living?, alike.shown source shown]

/-- A hidden text decides nothing about which documents there are. -/
theorem filter (alike : Alike hidden left right) (source : SourceId)
    {chosen : Source → Bool}
    (blind : ∀ document : Source, chosen document.husk = chosen document) :
    (left.sources[source]?.filter chosen).isSome =
      (right.sources[source]?.filter chosen).isSome := by
  have husks := congrArg (·[source]?) alike.husks
  simp only [List.getElem?_map] at husks
  have sees : ∀ document? : Option Source, (document?.filter chosen).isSome =
      ((document?.map Source.husk).filter chosen).isSome := by
    intro document?
    cases document? with
    | none => rfl
    | some document =>
        cases isChosen : chosen document <;> simp [Option.filter, blind, isChosen]
  exact (sees _).trans ((congrArg (fun document? => (document?.filter chosen).isSome)
    husks).trans (sees _).symm)

theorem withTracked (alike : Alike hidden left right) {first second : Option Tracked}
    (same : first = second) :
    Alike hidden { left with tracked? := first } { right with tracked? := second } :=
  { alike with tracked? := same }

theorem atClock (alike : Alike hidden left right) (clock : Nat) :
    Alike hidden { left with clock } { right with clock } :=
  { alike with clock := rfl }

theorem tell (alike : Alike hidden left right) {first second : Event}
    (same : first = second) : Alike hidden (left.tell first) (right.tell second) :=
  { alike with events := by rw [Strand.tell, Strand.tell, alike.clock, alike.events, same] }

theorem drop (alike : Alike hidden left right) : Alike hidden left.drop right.drop :=
  (alike.withTracked rfl).tell (congrArg _ alike.id)

theorem reply (alike : Alike hidden left right) (origin : Origin)
    {first second : Answer} (same : first = second) :
    Alike hidden (left.reply origin first) (right.reply origin second) := by
  unfold Strand.reply
  split
  · exact alike.tell (congrArg₂ _ alike.id same)
  · exact alike

theorem conclude (alike : Alike hidden left right) (tracked : Tracked) (origin : Origin)
    (ending : Ending) :
    Alike hidden (left.conclude tracked origin ending)
      (right.conclude tracked origin ending) :=
  ((alike.withTracked rfl).tell (congrArg (ending.event ·) alike.id)).reply _
    (congrArg (ending.answer ·) alike.id)

theorem endingOf? (alike : Alike hidden left right) {tracked : Tracked}
    (shown : ¬hidden tracked.source) (work : Work) :
    left.endingOf? tracked work = right.endingOf? tracked work := by
  unfold Strand.endingOf? Strand.reading Strand.conclusion
  rw [alike.living? shown]

theorem finish (alike : Alike hidden left right) (watches : left.Watches hidden) :
    Alike hidden left.finish right.finish := by
  unfold Strand.finish
  rw [← alike.tracked?]
  cases known : left.tracked? with
  | none => exact alike
  | some tracked =>
      dsimp only
      cases tracked.work? with
      | none => exact alike
      | some work =>
          dsimp only
          rw [alike.endingOf? (watches tracked known)]
          cases right.endingOf? tracked work with
          | none => exact alike
          | some ending => exact alike.conclude _ _ _

theorem awaited? (alike : Alike hidden left right) (watches : left.Watches hidden) :
    left.awaited? = right.awaited? := by
  unfold Strand.awaited?
  rw [← alike.tracked?, ← alike.id]
  cases known : left.tracked? with
  | none => rfl
  | some tracked =>
      dsimp only
      cases tracked.work? with
      | none => rfl
      | some work =>
          dsimp only
          rw [alike.endingOf? (watches tracked known)]

theorem edit (alike : Alike hidden left right) (watches : left.Watches hidden) :
    left.edit.1 = right.edit.1 ∧ Alike hidden left.edit.2 right.edit.2 := by
  cases known : left.tracked? with
  | none =>
      rw [edit_unknown known, edit_unknown (alike.tracked?.symm.trans known), alike.id]
      exact ⟨rfl, alike⟩
  | some tracked =>
      have knownThere := alike.tracked?.symm.trans known
      have sameLiving := alike.living? (watches tracked known)
      cases living : left.living? tracked.source with
      | none =>
          rw [edit_gone known living, edit_gone knownThere (sameLiving.symm.trans living),
            alike.id]
          exact ⟨rfl, alike.drop⟩
      | some document =>
          rw [edit_living known living,
            edit_living knownThere (sameLiving.symm.trans living)]
          have timer : left.timer = right.timer := by
            rw [Strand.timer, Strand.timer, alike.settings, alike.clock]
          exact ⟨by rw [alike.settings],
            alike.withTracked (by rw [alike.settings, timer])⟩

theorem asked (alike : Alike hidden left right) (tracked : Tracked) (awaited : Bool) :
    Alike hidden (left.asked tracked awaited) (right.asked tracked awaited) :=
  alike.withTracked (by rw [alike.settings])

theorem watches_asked {tracked : Tracked} (shown : ¬hidden tracked.source)
    (awaited : Bool) : (left.asked tracked awaited).Watches hidden := by
  rintro _ ⟨⟩
  exact shown

theorem call (alike : Alike hidden left right) (watches : left.Watches hidden)
    (awaited : Bool) : Alike hidden (left.call awaited) (right.call awaited) := by
  unfold Strand.call
  rw [← alike.tracked?]
  cases known : left.tracked? with
  | none => exact alike.reply _ (by rw [alike.id])
  | some tracked =>
      exact (alike.asked tracked awaited).finish (watches_asked (watches tracked known) _)

theorem callAnswer (alike : Alike hidden left right) (watches : left.Watches hidden) :
    left.callAnswer = right.callAnswer := by
  unfold Strand.callAnswer
  rw [← alike.tracked?, ← alike.id]
  cases known : left.tracked? with
  | none => rfl
  | some tracked =>
      dsimp only
      rw [(alike.asked tracked true).awaited? (watches_asked (watches tracked known) _)]

theorem advanceTo (alike : Alike hidden left right) (watches : left.Watches hidden)
    (time : Nat) : Alike hidden (left.advanceTo time) (right.advanceTo time) := by
  have timers : right.timer? = left.timer? := by
    rw [timer?, timer?, alike.tracked?]
  cases armed : left.timer? with
  | none =>
      rw [advanceTo_of_unarmed armed, advanceTo_of_unarmed (timers.trans armed)]
      exact alike.atClock time
  | some timer =>
      obtain ⟨deadline, woken⟩ := timer
      rw [advanceTo_of_armed armed, advanceTo_of_armed (timers.trans armed)]
      split
      · obtain ⟨tracked, work, known, -, -, rfl⟩ := timer?_eq_some armed
        refine Alike.atClock (Alike.finish ((alike.atClock deadline).withTracked rfl) ?_) time
        rintro _ ⟨⟩
        exact watches tracked known
      · exact alike.atClock time

/-- The same document of the host is changed on both sides. -/
theorem modifySource (alike : Alike hidden left right) (source : SourceId)
    {change : Source → Source}
    (blind : ∀ first second : Source, first.husk = second.husk →
      (change first).husk = (change second).husk) :
    Alike hidden (left.modifySource source change) (right.modifySource source change) := by
  refine { alike with husks := ?_, shown := fun other shown => ?_ }
  · apply List.ext_getElem?
    intro other
    have husks := congrArg (·[other]?) alike.husks
    simp only [List.getElem?_map] at husks
    by_cases here : source = other
    · subst here
      cases first : left.sources[source]? <;> cases second : right.sources[source]? <;>
        simp_all only [Option.map_none, Option.map_some, reduceCtorEq, Option.some.injEq]
      · simp [Strand.modifySource, first, second]
      · simpa [Strand.modifySource, first, second] using blind _ _ husks
    · simpa [Strand.modifySource, here] using husks
  · have same := alike.shown other shown
    simp [Strand.modifySource, List.getElem?_modify, same]

theorem rewrite (alike : Alike hidden left right) (source : SourceId)
    (change : Buffer → Buffer) :
    Alike hidden (left.rewrite source change) (right.rewrite source change) := by
  have editable := alike.filter source Source.husk_canEdit
  unfold Strand.rewrite
  cases first : left.sources[source]?.filter Source.canEdit <;>
    cases second : right.sources[source]?.filter Source.canEdit
  case none.none => exact alike
  case some.some => exact alike.modifySource source fun _ _ same => same
  all_goals simp [first, second] at editable

theorem release (alike : Alike hidden left right) (source : SourceId) :
    Alike hidden (left.release source) (right.release source) := by
  have held := alike.filter source Source.husk_held
  unfold Strand.release
  cases first : left.sources[source]?.filter (·.held) <;>
    cases second : right.sources[source]?.filter (·.held)
  case none.none => exact alike
  case some.some =>
    exact alike.modifySource source fun _ _ same =>
      congrArg (fun document => { document with held := false }) same
  all_goals simp [first, second] at held

theorem register (alike : Alike hidden left right) (source : SourceId) :
    Alike hidden (left.register source) (right.register source) := by
  have held := alike.filter source Source.husk_held
  unfold Strand.register
  cases first : left.sources[source]?.filter (·.held) <;>
    cases second : right.sources[source]?.filter (·.held)
  case none.none => exact alike
  case some.some =>
    exact { alike with
      nextId := congrArg (· + 1) alike.nextId
      tracked? := by rw [alike.id, alike.nextId, alike.tracked?] }
  all_goals simp [first, second] at held

theorem sweep (alike : Alike hidden left right) (watches : left.Watches hidden) :
    Alike hidden left.sweep right.sweep := by
  unfold Strand.sweep
  rw [← alike.tracked?]
  cases known : left.tracked? with
  | none => exact alike
  | some tracked =>
      dsimp only
      rw [alike.living? (watches tracked known)]
      split
      · exact alike.drop
      · exact alike

theorem unregister (alike : Alike hidden left right) :
    Alike hidden left.unregister right.unregister := by
  unfold Strand.unregister
  rw [← alike.tracked?]
  split
  · exact alike
  · exact alike.drop

theorem reconfigure (alike : Alike hidden left right) (watches : left.Watches hidden)
    (settings : Settings) :
    Alike hidden (left.reconfigure settings) (right.reconfigure settings) := by
  unfold Strand.reconfigure
  split
  · exact alike
  · have changed : Alike hidden { left with settings } { right with settings } :=
      { alike with settings := rfl }
    exact (changed.edit watches).2

theorem perform (alike : Alike hidden left right) (watches : left.Watches hidden)
    (action : Action) : Alike hidden (left.perform action) (right.perform action) := by
  cases action with
  | replace source text => exact alike.rewrite source (·.replace text)
  | append source text => exact alike.rewrite source (·.append text)
  | release source => exact alike.release source
  | register source => exact alike.register source
  | edit id =>
      simp only [Strand.perform, ← alike.id]
      split
      · exact (alike.edit watches).2
      · exact alike
  | startNow id =>
      simp only [Strand.perform, ← alike.id]
      split
      · exact alike.call watches false
      · exact alike
  | unregister id =>
      simp only [Strand.perform, ← alike.id]
      split
      · exact alike.unregister
      · exact alike
  | sweep => exact alike.sweep watches
  | shutdown => exact alike.unregister
  | reconfigure settings => exact alike.reconfigure watches settings
  | dropScheduler =>
      exact { alike with
        held := rfl
        tracked? := congrArg (Option.map Tracked.rested) alike.tracked? }
  | _ => exact alike

theorem step (alike : Alike hidden left right) (watches : left.Watches hidden)
    (step : Step) : Alike hidden (left.step step) (right.step step) := by
  cases step with
  | create source =>
      exact { alike with
        husks := by simp [Strand.step, alike.husks]
        shown := fun other shown => by
          have lengths : left.sources.length = right.sources.length := by
            simpa using congrArg List.length alike.husks
          simp [Strand.step, List.getElem?_append, lengths, alike.shown other shown] }
  | act action =>
      simp only [Strand.step, ← alike.held]
      split
      · exact alike
      · exact alike.perform watches action
  | highlightNow id =>
      simp only [Strand.step, ← alike.held, ← alike.id]
      split
      · exact alike.call watches true
      · exact alike
  | advance duration =>
      simp only [Strand.step, ← alike.clock]
      exact alike.advanceTo watches _

theorem info? (alike : Alike hidden left right) : left.info? = right.info? := by
  rw [Strand.info?, Strand.info?, alike.id, alike.tracked?, alike.held]

theorem answer (alike : Alike hidden left right) (watches : left.Watches hidden)
    (step : Step) : left.answer step = right.answer step := by
  unfold Strand.answer
  rw [(alike.edit watches).1, alike.callAnswer watches, alike.info?, alike.held,
    alike.tracked?, alike.id]

end Alike

/-- A change of a hidden text is not seen. -/
theorem alike_rewrite {hidden : SourceId → Prop} (strand : Strand) {source : SourceId}
    (isHidden : hidden source) (change : Buffer → Buffer) :
    Alike hidden (strand.rewrite source change) strand := by
  unfold rewrite
  split
  · exact .refl strand
  · have same : Alike hidden strand strand := .refl strand
    refine { same with husks := ?_, shown := fun other shown => ?_ }
    · apply List.ext_getElem?
      intro other
      by_cases here : source = other
      · subst here
        cases found : strand.sources[source]? <;> simp [modifySource, found, Source.husk]
      · simp [modifySource, here]
    · have elsewhere : source ≠ other := by
        rintro rfl
        exact shown isHidden
      simp [modifySource, elsewhere]

/-- A step that spares a document changes nothing but hidden texts. -/
theorem alike_of_spares {hidden : SourceId → Prop} (strand : Strand) {step : Step}
    (spares : step.Spares strand.id hidden) : Alike hidden (strand.step step) strand := by
  have still : strand.step step = strand → Alike hidden (strand.step step) strand :=
    fun same => same.symm ▸ .refl strand
  cases step with
  | create source => cases spares
  | advance duration => cases spares
  | highlightNow other =>
      refine still ?_
      rw [step, if_neg (by simp [show other ≠ strand.id from spares])]
  | act action =>
      cases action with
      | replace source text => exact strand.alike_rewrite spares (·.replace text)
      | append source text => exact strand.alike_rewrite spares (·.append text)
      | edit other =>
          refine still ?_
          rw [step, perform, if_neg (show other ≠ strand.id from spares), ite_self]
      | startNow other =>
          refine still ?_
          rw [step, perform, if_neg (show other ≠ strand.id from spares), ite_self]
      | unregister other =>
          refine still ?_
          rw [step, perform, if_neg (show other ≠ strand.id from spares), ite_self]
      | info other => exact still (ite_self _)
      | contains other => exact still (ite_self _)
      | _ => cases spares

end Strand

namespace Session

/-- What the host sees of a document after a step. -/
structure Sighting where
  /-- The answer to a step that names the document. -/
  answer? : Option Answer
  /-- What the host has been told of the document so far, with the time. -/
  events : List (Nat × Event)
  info? : Option DocumentInfo
deriving DecidableEq

def sighting (session : Session) (id : DocumentId) (step : Step) : Sighting :=
  { answer? := if step.document? = some id then some session.answer else none
    events := session.eventsOf id
    info? := (session.registry.find? id).map Entry.info }

/-- What the host sees of a document after each step that is marked. -/
def sightings (id : DocumentId) : Session → List (Step × Bool) → List Sighting
  | _, [] => []
  | session, (step, marked) :: later =>
      let after := session.step step
      (if marked then [after.sighting id step] else []) ++ sightings id after later

/-- The document of the host is never registered under the number while the steps
are taken. -/
def NeverUnder (session : Session) (id : DocumentId) (steps : List Step)
    (source : SourceId) : Prop :=
  ∀ earlier, earlier <+: steps → ∀ entry,
    (session.steps earlier).registry.find? id = some entry → entry.source ≠ source

variable {documents others : DocumentId → Option Tracked} {session other : Session}
  {id : DocumentId} {hidden : SourceId → Prop}

/-- What the host sees of a document it sees in its strand. -/
theorem AtRest.sighting_eq {after : DocumentId → Option Tracked} {step : Step}
    (rest : AtRest after (session.step step))
    (answers : step.document? = some id →
      (session.step step).answer = (session.strand documents id).answer step) :
    (session.step step).sighting id step =
      { answer? :=
          if step.document? = some id then
            some ((session.strand documents id).answer step)
          else none
        events := ((session.step step).strand after id).events
        info? := ((session.step step).strand after id).info? } := by
  rw [sighting, rest.info_eq]
  congr 1
  split
  · rename_i names
    rw [answers names]
  · rfl

/-- Runs that begin alike are seen alike, even if one of them leaves out steps that
spare the document. -/
theorem sightings_alike {marked : List (Step × Bool)} (rest : AtRest documents session)
    (restThere : AtRest others other)
    (alike : (session.strand documents id).Alike hidden (other.strand others id))
    (quiet : ∀ source, .create source ∈ marked.map Prod.fst → source.isQuiet = true)
    (spares : ∀ step, (step, false) ∈ marked → step.Spares id hidden)
    (shown : ∀ earlier, earlier <+: marked.map Prod.fst → ∀ entry,
      (session.steps earlier).registry.find? id = some entry → ¬hidden entry.source) :
    session.sightings id marked = other.sightings id (marked.filter Prod.snd) ∧
      (session.steps (marked.map Prod.fst)).eventsOf id =
        (other.steps ((marked.filter Prod.snd).map Prod.fst)).eventsOf id := by
  induction marked generalizing session other documents others with
  | nil => exact ⟨rfl, alike.events⟩
  | cons head later induction =>
      obtain ⟨step, kept⟩ := head
      have watches : (session.strand documents id).Watches hidden := by
        intro tracked known
        exact shown [] List.nil_prefix _ (rest.shows.find?_entry known)
      have shownLater : ∀ earlier, earlier <+: later.map Prod.fst → ∀ entry,
          ((session.step step).steps earlier).registry.find? id = some entry →
            ¬hidden entry.source := by
        intro earlier before entry found
        exact shown (step :: earlier) (List.prefix_cons_inj step |>.mpr before) entry found
      have quietLater : ∀ source, .create source ∈ later.map Prod.fst →
          source.isQuiet = true :=
        fun source created => quiet source (List.mem_cons_of_mem _ created)
      have sparesLater : ∀ step, (step, false) ∈ later → step.Spares id hidden :=
        fun step member => spares step (List.mem_cons_of_mem _ member)
      have quietHere : ∀ source, step = .create source → source.isQuiet = true := by
        rintro source rfl
        exact quiet source List.mem_cons_self
      obtain ⟨after, restAfter, strands, answers⟩ := rest.step step quietHere
      cases kept with
      | false =>
          have stays := (session.strand documents id).alike_of_spares
            (spares step List.mem_cons_self)
          rw [← strands] at stays
          exact induction restAfter restThere (stays.trans alike) quietLater sparesLater
            shownLater
      | true =>
          obtain ⟨afterThere, restAfterThere, strandsThere, answersThere⟩ :=
            restThere.step step quietHere
          have alikeAfter := alike.step watches step
          rw [← strands, ← strandsThere] at alikeAfter
          obtain ⟨sees, hears⟩ := induction restAfter restAfterThere alikeAfter quietLater
            sparesLater shownLater
          refine ⟨?_, hears⟩
          rw [List.filter_cons_of_pos rfl, sightings, sightings, sees,
            restAfter.sighting_eq (answers id), restAfterThere.sighting_eq (answersThere id),
            alikeAfter.events, alikeAfter.info?, alike.answer watches]

/-- Whatever steps on other documents are left out of a run, and whatever changes of
texts that the document was never registered for, the host sees the same of the
document after each step that it takes to the end: the answers to the steps that name
it, what it is told of it and when, and how it stands. -/
theorem steps_independent {settings : Settings} {cache : Option Cache}
    {stopwatch : Run → Nat} {begun : Session} {marked : List (Step × Bool)}
    (id : DocumentId) (started : start settings cache stopwatch = .ok begun)
    (sound : ∀ given, cache = some given → given.Sound)
    (quiet : ∀ source, .create source ∈ marked.map Prod.fst → source.isQuiet = true)
    (spares : ∀ step, (step, false) ∈ marked →
      step.Spares id (begun.NeverUnder id (marked.map Prod.fst))) :
    begun.sightings id marked = begun.sightings id (marked.filter Prod.snd) ∧
      (begun.steps (marked.map Prod.fst)).eventsOf id =
        (begun.steps ((marked.filter Prod.snd).map Prod.fst)).eventsOf id := by
  have rest := atRest_of_start started sound
  refine sightings_alike rest rest (.refl _) quiet spares ?_
  intro earlier before entry found never
  exact never earlier before entry found rfl

end Session

end LogTint
