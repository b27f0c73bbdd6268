import LogTint.Proofs.StrandTime

/-!
# The timer of one document

`Strand.Becomes` says once what a step can do to a document.  A run that waits for
its timer is overtaken by a step, waits on, or fires, and all that follows from it.
-/

namespace LogTint

namespace Step

/-- The time that a step takes. -/
def duration : Step → Nat
  | .advance duration => duration
  | _ => 0

/-- Whether a step edits a document, at the host's wish or with new settings. -/
def Edits (id : DocumentId) : Step → Prop
  | .act (.edit other) => other = id
  | .act (.reconfigure settings) => settings.validate.isOk = true
  | _ => False

/-- Whether a step calls for the highlights of a document at once. -/
def Calls (id : DocumentId) : Step → Prop
  | .act (.startNow other) | .highlightNow other => other = id
  | _ => False

/-- Whether a step overtakes a run of the document that waits for its timer.  A
sweep does if the document was given up. -/
def overtakes (id : DocumentId) (givenUp : Bool) : Step → Bool
  | .act (.edit other) | .act (.startNow other) | .act (.unregister other)
  | .highlightNow other => decide (other = id)
  | .act (.reconfigure settings) => settings.validate.isOk
  | .act .sweep => givenUp
  | .act .shutdown | .act .dropScheduler => true
  | _ => false

variable {step : Step} {id : DocumentId}

theorem overtakes_of_edits (edits : step.Edits id) (givenUp : Bool) :
    step.overtakes id givenUp = true := by
  cases step with
  | act action =>
      cases action with
      | edit other => exact decide_eq_true edits
      | reconfigure settings => exact edits
      | _ => cases edits
  | _ => cases edits

theorem overtakes_of_calls (calls : step.Calls id) (givenUp : Bool) :
    step.overtakes id givenUp = true := by
  cases step with
  | act action =>
      cases action with
      | startNow other => exact decide_eq_true calls
      | _ => cases calls
  | highlightNow other => exact decide_eq_true calls
  | _ => cases calls

/-- No step that overtakes a run takes time. -/
theorem duration_of_overtakes {givenUp : Bool} (overtakes : step.overtakes id givenUp = true) :
    step.duration = 0 := by
  cases step with
  | advance duration => cases overtakes
  | _ => rfl

end Step

namespace Strand

/-- Whether the document is tracked although it was given up. -/
def isGivenUp (strand : Strand) : Bool :=
  strand.tracked?.any fun tracked => (strand.living? tracked.source).isNone

/-- What a step makes of the document, and what news of it the host is told. -/
inductive Becomes (strand : Strand) (step : Step) :
    Option Tracked → List (Nat × Event) → Prop where
  /-- Nothing happens to the document. -/
  | stays
      (spared : strand.held = true → strand.tracked?.isSome = true →
        step.overtakes strand.id strand.isGivenUp = false) :
      Becomes strand step strand.tracked? []
  | registers (source : SourceId) (fresh : strand.id = ⟨strand.nextId⟩) :
      Becomes strand step (some ⟨source, 0, none⟩) []
  | edits {tracked : Tracked} (work? : Option Work)
      (known : strand.tracked? = some tracked) (edits : step.Edits strand.id)
      (timer : ∀ work, work? = some work → work.phase =
        .sleeping (strand.clock + (strand.step step).settings.debounce))
      (scheduled : step = .act (.edit strand.id) → work?.isSome = true →
        strand.answer step = .outcome .scheduled) :
      Becomes strand step (some (tracked.renewed work?)) []
  | calls {tracked : Tracked} (work? : Option Work) (ending : Ending)
      (news : List (Nat × Event)) (known : strand.tracked? = some tracked)
      (calls : step.Calls strand.id) :
      Becomes strand step (ending.leaves (tracked.renewed work?)) news
  /-- A call finds that the document is not tracked. -/
  | misses (news : List (Nat × Event)) (unknown : strand.tracked? = none)
      (calls : step.Calls strand.id) : Becomes strand step none news
  | drops {tracked : Tracked} (known : strand.tracked? = some tracked)
      (overtakes : step.overtakes strand.id strand.isGivenUp = true) :
      Becomes strand step none [(strand.clock, .closed strand.id)]
  | fires {deadline : Nat} {woken : Tracked} (config : WorkerConfig) (origin : Origin)
      (armed : strand.timer? = some (deadline, woken)) (duration : Nat)
      (advances : step = .advance duration) (passed : deadline ≤ strand.clock + duration) :
      Becomes strand step ((strand.reading woken config).leaves woken)
        (((strand.reading woken config).event strand.id ::
          if origin = Origin.call false then
            [.returned strand.id ((strand.reading woken config).answer strand.id)]
          else []).map (deadline, ·))
  | rests (drops : step = .act .dropScheduler) :
      Becomes strand step (strand.tracked?.map Tracked.rested) []

/-- What a step leaves of a strand. -/
structure Turned (strand : Strand) (step : Step) (after : Strand) : Prop where
  becomes : ∃ news, after.events = strand.events ++ news ∧
    Becomes strand step after.tracked? news
  id : after.id = strand.id
  clock : after.clock = strand.clock + step.duration
  nextId : strand.nextId ≤ after.nextId
  settings : step.overtakes strand.id strand.isGivenUp = false →
    after.settings = strand.settings
  held : step.overtakes strand.id strand.isGivenUp = false → after.held = strand.held

variable {strand : Strand} {step : Step}

/-- Nothing of a step reaches the document. -/
theorem turned_same {after : Strand} (sameId : after.id = strand.id)
    (clock : after.clock = strand.clock + step.duration)
    (nextId : strand.nextId ≤ after.nextId) (settings : after.settings = strand.settings)
    (held : after.held = strand.held) (tracked? : after.tracked? = strand.tracked?)
    (events : after.events = strand.events)
    (spared : strand.held = true → strand.tracked?.isSome = true →
      step.overtakes strand.id strand.isGivenUp = false) :
    Turned strand step after where
  becomes := ⟨[], by simp [events], by rw [tracked?]; exact .stays spared⟩
  id := sameId
  clock := clock
  nextId := nextId
  settings _ := settings
  held _ := held

/-- A step takes no time and changes only what is tracked of the document and what
is told of it. -/
theorem turned_record {tracked? : Option Tracked} {news : List (Nat × Event)}
    (still : step.duration = 0)
    (becomes : Becomes strand step tracked? news) :
    Turned strand step { strand with tracked?, events := strand.events ++ news } where
  becomes := ⟨news, rfl, becomes⟩
  id := rfl
  clock := by rw [still]; rfl
  nextId := Nat.le_refl _
  settings _ := rfl
  held _ := rfl

theorem turned_edit {settings : Settings} (isEdit : step.Edits strand.id)
    (still : step.duration = 0)
    (overtakes : step.overtakes strand.id strand.isGivenUp = true)
    (same : strand.step step = { strand with settings }.edit.2)
    (answers : step = .act (.edit strand.id) →
      strand.answer step = { strand with settings }.edit.1) :
    Turned strand step (strand.step step) := by
  have spoils : step.overtakes strand.id strand.isGivenUp = false → False := by
    simp [overtakes]
  have turned : ∀ {tracked? : Option Tracked} {news : List (Nat × Event)},
      Becomes strand step tracked? news →
      Turned strand step
        { strand with settings, tracked?, events := strand.events ++ news } :=
    fun becomes =>
      { becomes := ⟨_, rfl, becomes⟩
        id := rfl
        clock := by rw [still]; rfl
        nextId := Nat.le_refl _
        settings := fun spared => absurd spared spoils
        held := fun spared => absurd spared spoils }
  have debounce : (strand.step step).settings.debounce = settings.debounce := by
    rw [same, edit_eq]
    rfl
  cases known : strand.tracked? with
  | none =>
      rw [same, edit_unknown (by exact known)]
      have stays : Becomes strand step strand.tracked? [] := .stays (by simp [known])
      simpa using turned stays
  | some tracked =>
      cases living : strand.living? tracked.source with
      | none =>
          rw [same, edit_gone (by exact known) (by exact living)]
          exact turned (.drops known overtakes)
      | some document =>
          have edited := @edit_living { strand with settings } tracked document known living
          rw [same, edited]
          rw [edited] at answers
          have edits := turned (.edits
            (if settings.maxChars < document.length then none
              else some (Strand.timer { strand with settings })) known isEdit ?_ ?_)
          · simpa using edits
          · intro work underWay
            rw [debounce]
            split at underWay
            · cases underWay
            · cases underWay
              rfl
          · intro isEdit armed
            rw [answers isEdit]
            split at armed
            · cases armed
            · rename_i within
              exact if_neg within

theorem turned_call {awaited : Bool} (isCall : step.Calls strand.id)
    (still : step.duration = 0) (same : strand.step step = strand.call awaited) :
    Turned strand step (strand.step step) := by
  rw [same, call]
  cases known : strand.tracked? with
  | none =>
      cases awaited with
      | true =>
          have misses : Becomes strand step strand.tracked? [] := known ▸ .misses [] known isCall
          show Turned strand step strand
          simpa using turned_record still misses
      | false =>
          have misses := turned_record still (.misses
            [(strand.clock, .returned strand.id (.failure (.documentNotFound strand.id)))]
            known isCall)
          rw [← known] at misses
          exact misses
  | some tracked =>
      let work : Work := ⟨strand.settings.workerConfig, .call awaited, .due⟩
      have underWay : (tracked.renewed (some work)).work? = some work := rfl
      have ends : (strand.asked tracked awaited).finish = _ := finish_eq rfl underWay rfl
      dsimp only
      rw [ends, conclude_eq]
      exact turned_record still (.calls (some work) _ _ known isCall)

theorem turned_unregister (still : step.duration = 0)
    (overtakes : step.overtakes strand.id strand.isGivenUp = true) :
    Turned strand step strand.unregister := by
  rw [unregister]
  cases known : strand.tracked? with
  | none =>
      have stays : Becomes strand step strand.tracked? [] := .stays (by simp [known])
      simpa using turned_record still stays
  | some tracked => exact turned_record still (.drops known overtakes)

theorem turned_sweep : Turned strand (.act .sweep) strand.sweep := by
  rw [sweep]
  cases known : strand.tracked? with
  | none =>
      exact turned_same rfl rfl (Nat.le_refl _) rfl rfl rfl rfl (by simp [known])
  | some tracked =>
      dsimp only
      cases living : strand.living? tracked.source with
      | none =>
          exact turned_record rfl
            (.drops known (by simp [Step.overtakes, isGivenUp, known, living]))
      | some document =>
          exact turned_same rfl rfl (Nat.le_refl _) rfl rfl rfl rfl
            (by simp [Step.overtakes, isGivenUp, known, living])

theorem turned_rewrite (source : SourceId) (change : Buffer → Buffer)
    (still : step.duration = 0)
    (spared : step.overtakes strand.id strand.isGivenUp = false) :
    Turned strand step (strand.rewrite source change) := by
  have clock : strand.clock = strand.clock + step.duration := by rw [still]; rfl
  unfold rewrite
  split <;>
    exact turned_same rfl clock (Nat.le_refl _) rfl rfl rfl rfl fun _ _ => spared

theorem turned_register (source : SourceId) :
    Turned strand (.act (.register source)) (strand.register source) := by
  have spared : strand.held = true → strand.tracked?.isSome = true →
      (Step.act (.register source)).overtakes strand.id strand.isGivenUp = false :=
    fun _ _ => rfl
  unfold register
  split
  · exact turned_same rfl rfl (Nat.le_refl _) rfl rfl rfl rfl spared
  · by_cases fresh : strand.id = ⟨strand.nextId⟩
    · rw [if_pos fresh]
      exact
        { becomes := ⟨[], (List.append_nil _).symm, .registers source fresh⟩
          id := rfl
          clock := rfl
          nextId := Nat.le_succ _
          settings := fun _ => rfl
          held := fun _ => rfl }
    · rw [if_neg fresh]
      exact turned_same rfl rfl (Nat.le_succ _) rfl rfl rfl rfl spared

theorem turned_advance (duration : Nat) :
    Turned strand (.advance duration) (strand.advanceTo (strand.clock + duration)) := by
  cases armed : strand.timer? with
  | none =>
      rw [advanceTo_of_unarmed armed]
      exact turned_same rfl rfl (Nat.le_refl _) rfl rfl rfl rfl fun _ _ => rfl
  | some timer =>
      obtain ⟨deadline, woken⟩ := timer
      rw [advanceTo_of_armed armed]
      split
      · rename_i passed
        obtain ⟨config, origin, due⟩ := timer?_due armed
        rw [fired_eq due]
        exact
          { becomes := ⟨_, rfl, .fires config origin armed duration rfl passed⟩
            id := rfl
            clock := rfl
            nextId := Nat.le_refl _
            settings := fun _ => rfl
            held := fun _ => rfl }
      · exact turned_same rfl rfl (Nat.le_refl _) rfl rfl rfl rfl fun _ _ => rfl

/-- What every step leaves of every strand. -/
theorem turned (strand : Strand) (step : Step) : Turned strand step (strand.step step) := by
  have still : ∀ after : Strand, after = strand → (strand.held = true →
      strand.tracked?.isSome = true → step.overtakes strand.id strand.isGivenUp = false) →
      step.duration = 0 → Turned strand step after := by
    rintro after rfl spared still
    exact turned_same rfl (by rw [still]; rfl) (Nat.le_refl _) rfl rfl rfl rfl spared
  cases step with
  | create source =>
      exact turned_same rfl rfl (Nat.le_refl _) rfl rfl rfl rfl fun _ _ => rfl
  | advance duration => exact turned_advance duration
  | highlightNow id =>
      cases held : strand.held && decide (id = strand.id) with
      | true =>
          have here : id = strand.id := by simp_all
          exact turned_call here rfl (if_pos held)
      | false =>
          refine still _ (if_neg (by simp [held])) (fun isHeld _ => ?_) rfl
          have elsewhere : id ≠ strand.id := by simpa [isHeld] using held
          exact decide_eq_false elsewhere
  | act action =>
      cases available : action.needsScheduler && !strand.held with
      | true =>
          refine still _ (if_pos available) (fun isHeld _ => ?_) rfl
          simp [isHeld] at available
      | false =>
          have performs : strand.step (.act action) = strand.perform action :=
            if_neg (by simp [available])
          have elsewhere : ∀ id, id ≠ strand.id → decide (id = strand.id) = false :=
            fun _ different => decide_eq_false different
          cases action with
          | replace source text =>
              exact performs ▸ turned_rewrite source (·.replace text) rfl rfl
          | append source text =>
              exact performs ▸ turned_rewrite source (·.append text) rfl rfl
          | release source =>
              rw [performs, perform, release]
              split <;>
                exact turned_same rfl rfl (Nat.le_refl _) rfl rfl rfl rfl fun _ _ => rfl
          | register source => exact performs ▸ turned_register source
          | edit id =>
              by_cases here : id = strand.id
              · have held : strand.held = true := by
                  simpa [Action.needsScheduler] using available
                exact turned_edit here rfl (decide_eq_true here)
                  (performs.trans (if_pos here)) fun _ => if_pos held
              · exact still _ (performs.trans (if_neg here)) (fun _ _ => elsewhere id here) rfl
          | startNow id =>
              by_cases here : id = strand.id
              · exact turned_call here rfl (performs.trans (if_pos here))
              · exact still _ (performs.trans (if_neg here)) (fun _ _ => elsewhere id here) rfl
          | unregister id =>
              by_cases here : id = strand.id
              · rw [performs, perform, if_pos here]
                exact turned_unregister rfl (decide_eq_true here)
              · exact still _ (performs.trans (if_neg here)) (fun _ _ => elsewhere id here) rfl
          | sweep => exact performs ▸ turned_sweep
          | shutdown =>
              rw [performs]
              exact turned_unregister rfl rfl
          | reconfigure settings =>
              have changes : strand.step (.act (.reconfigure settings)) =
                  strand.reconfigure settings := performs
              cases valid : settings.validate with
              | error fault =>
                  rw [reconfigure, valid] at changes
                  exact still _ changes (fun _ _ => by simp [Step.overtakes, valid, Except.isOk,
                    Except.toBool]) rfl
              | ok _ =>
                  have accepted : settings.validate.isOk = true := by rw [valid]; rfl
                  rw [reconfigure, valid] at changes
                  exact turned_edit accepted rfl accepted changes fun impossible => by
                    cases impossible
          | dropScheduler =>
              rw [performs]
              exact
                { becomes := ⟨[], (List.append_nil _).symm, .rests rfl⟩
                  id := rfl
                  clock := rfl
                  nextId := Nat.le_refl _
                  settings := fun _ => rfl
                  held := fun spared => by cases spared }
          | info id => exact still _ performs (fun _ _ => rfl) rfl
          | contains id => exact still _ performs (fun _ _ => rfl) rfl
          | settings => exact still _ performs (fun _ _ => rfl) rfl
          | clearCache => exact still _ performs (fun _ _ => rfl) rfl
          | describe => exact still _ performs (fun _ _ => rfl) rfl

/-- The run of a generation waits for its timer. -/
structure Awaits (strand : Strand) (source : SourceId) (generation : Nat)
    (config : WorkerConfig) (deadline : Nat) : Prop where
  held : strand.held = true
  known : strand.tracked? =
    some ⟨source, generation, some ⟨config, .timer, .sleeping deadline⟩⟩
  ahead : strand.clock < deadline
  numbered : strand.id.number < strand.nextId

/-- No run of a generation fires any more. -/
structure Spent (strand : Strand) (generation : Nat) : Prop where
  numbered : strand.id.number < strand.nextId
  bounds : ∀ tracked, strand.tracked? = some tracked → generation ≤ tracked.generation ∧
    (tracked.generation = generation → tracked.work? = none)

/-- A document that has its number is not given it again. -/
theorem not_fresh (numbered : strand.id.number < strand.nextId) :
    strand.id ≠ ⟨strand.nextId⟩ := by
  intro fresh
  rw [fresh] at numbered
  exact Nat.lt_irrefl _ numbered

theorem Turned.numbered {after : Strand} (turned : Turned strand step after)
    (numbered : strand.id.number < strand.nextId) : after.id.number < after.nextId := by
  rw [turned.id]
  exact Nat.lt_of_lt_of_le numbered turned.nextId

namespace Awaits

variable {source : SourceId} {generation : Nat} {config : WorkerConfig} {deadline : Nat}

theorem timer?_eq (awaits : strand.Awaits source generation config deadline) :
    strand.timer? =
      some (deadline, ⟨source, generation, some ⟨config, .timer, .due⟩⟩) :=
  timer?_of_deadline awaits.known rfl rfl

/-- A run that is not overtaken waits on until its time has come. -/
theorem waits (awaits : strand.Awaits source generation config deadline)
    (spared : step.overtakes strand.id strand.isGivenUp = false)
    (early : strand.clock + step.duration < deadline) :
    (strand.step step).Awaits source generation config deadline ∧
      (strand.step step).events = strand.events := by
  have turned := strand.turned step
  obtain ⟨news, events, becomes⟩ := turned.becomes
  have stays : (strand.step step).tracked? = strand.tracked? ∧ news = [] := by
    generalize (strand.step step).tracked? = after at becomes
    cases becomes with
    | stays => exact ⟨rfl, rfl⟩
    | registers source fresh => exact absurd fresh (not_fresh awaits.numbered)
    | edits work? known edits => simp [Step.overtakes_of_edits edits] at spared
    | calls work? ending news known calls => simp [Step.overtakes_of_calls calls] at spared
    | misses news unknown => simp [awaits.known] at unknown
    | drops known overtakes => simp [overtakes] at spared
    | fires config origin armed duration advances passed =>
        rw [awaits.timer?_eq] at armed
        cases armed
        rw [advances] at early
        exact absurd early (Nat.not_lt_of_le passed)
    | rests drops =>
        rw [drops] at spared
        cases spared
  refine ⟨⟨(turned.held spared).trans awaits.held, stays.1.trans awaits.known, ?_,
    turned.numbered awaits.numbered⟩, by rw [events, stays.2, List.append_nil]⟩
  rw [turned.clock]
  exact early

/-- A run that is overtaken does not fire. -/
theorem overtaken (awaits : strand.Awaits source generation config deadline)
    (overtakes : step.overtakes strand.id strand.isGivenUp = true) :
    (strand.step step).Spent generation := by
  have turned := strand.turned step
  obtain ⟨news, -, becomes⟩ := turned.becomes
  refine ⟨turned.numbered awaits.numbered, fun left known => ?_⟩
  rw [known] at becomes
  generalize same : some left = after at becomes
  cases becomes with
  | stays spared =>
      have spares := spared awaits.held (by simp [awaits.known])
      simp [overtakes] at spares
  | registers source fresh => exact absurd fresh (not_fresh awaits.numbered)
  | edits work? known edits =>
      rw [awaits.known] at known
      cases known
      cases same
      exact ⟨Nat.le_succ _, fun impossible => absurd impossible (Nat.succ_ne_self _)⟩
  | calls work? ending news known calls =>
      rw [awaits.known] at known
      cases known
      cases ending <;> cases same <;> exact ⟨Nat.le_succ _, fun _ => rfl⟩
  | misses news unknown => cases same
  | drops known => cases same
  | fires config origin armed duration advances =>
      rw [advances] at overtakes
      cases overtakes
  | rests drops =>
      rw [awaits.known] at same
      cases same
      exact ⟨Nat.le_refl _, fun _ => rfl⟩

/-- A run whose time has come fires. -/
theorem fires (awaits : strand.Awaits source generation config deadline)
    {duration : Nat} (passed : deadline ≤ strand.clock + duration) :
    (strand.step (.advance duration)).Spent generation ∧
      (strand.step (.advance duration)).events = strand.events ++
        [(deadline, (strand.reading ⟨source, generation, none⟩ config).event strand.id)] := by
  have turned := strand.turned (.advance duration)
  have due : Tracked.work? ⟨source, generation, some ⟨config, .timer, .due⟩⟩ =
      some ⟨config, .timer, .due⟩ := rfl
  have stepped : strand.step (.advance duration) =
      { strand.fired deadline ⟨source, generation, some ⟨config, .timer, .due⟩⟩ with
        clock := strand.clock + duration } := by
    rw [Strand.step, advanceTo_of_armed awaits.timer?_eq, if_pos passed]
  refine ⟨⟨turned.numbered awaits.numbered, fun tracked known => ?_⟩, ?_⟩
  · rw [stepped, fired_eq due] at known
    dsimp only at known
    cases ending : strand.reading ⟨source, generation, some ⟨config, .timer, .due⟩⟩ config <;>
      rw [ending] at known <;> cases known <;> exact ⟨Nat.le_refl _, fun _ => rfl⟩
  · rw [stepped, fired_eq due]
    rfl

theorem firing?_eq (awaits : strand.Awaits source generation config deadline) (time : Nat) :
    strand.firing? time = if deadline ≤ time then some (deadline, generation) else none :=
  firing?_of_armed awaits.timer?_eq

end Awaits

namespace Spent

variable {generation : Nat}

theorem stays (spent : strand.Spent generation) (step : Step) :
    (strand.step step).Spent generation := by
  have turned := strand.turned step
  obtain ⟨news, -, becomes⟩ := turned.becomes
  refine ⟨turned.numbered spent.numbered, fun left known => ?_⟩
  rw [known] at becomes
  generalize same : some left = after at becomes
  cases becomes with
  | stays => exact spent.bounds left same.symm
  | registers source fresh => exact absurd fresh (not_fresh spent.numbered)
  | @edits before work? knownBefore =>
      cases same
      have older := (spent.bounds before knownBefore).1
      exact ⟨Nat.le_succ_of_le older,
        fun impossible => absurd impossible (Nat.ne_of_gt (Nat.lt_succ_of_le older))⟩
  | @calls before work? ending news knownBefore =>
      have older := (spent.bounds before knownBefore).1
      cases ending <;> cases same <;> exact ⟨Nat.le_succ_of_le older, fun _ => rfl⟩
  | misses news unknown => cases same
  | drops known => cases same
  | fires config origin armed duration advances passed =>
      obtain ⟨tracked, work, known, -, -, rfl⟩ := timer?_eq_some armed
      have older := (spent.bounds _ known).1
      cases ending : strand.reading (tracked.during { work with phase := .due }) config <;>
        rw [ending] at same <;> cases same <;> exact ⟨older, fun _ => rfl⟩
  | rests drops =>
      obtain ⟨before, knownBefore, rfl⟩ := Option.map_eq_some_iff.mp same.symm
      exact ⟨(spent.bounds before knownBefore).1, fun _ => rfl⟩

theorem not_fires (spent : strand.Spent generation) (time at_ : Nat) :
    strand.firing? time ≠ some (at_, generation) := by
  intro fires
  cases armed : strand.timer? with
  | none =>
      rw [firing?_of_unarmed armed] at fires
      cases fires
  | some timer =>
      obtain ⟨deadline, woken⟩ := timer
      obtain ⟨tracked, work, known, underWay, -, rfl⟩ := timer?_eq_some armed
      rw [firing?_of_armed armed] at fires
      split at fires
      · cases fires
        have none := (spent.bounds tracked known).2 rfl
        rw [none] at underWay
        cases underWay
      · cases fires

end Spent

/-- An edit that is answered so has armed a timer. -/
theorem awaits_of_scheduled (held : strand.held = true)
    (numbered : strand.id.number < strand.nextId) (debounce : 0 < strand.settings.debounce)
    (scheduled : strand.edit.1 = .outcome .scheduled) :
    ∃ tracked, strand.tracked? = some tracked ∧ strand.edit.2.events = strand.events ∧
      strand.edit.2.Awaits tracked.source (tracked.generation + 1)
        strand.settings.workerConfig (strand.clock + strand.settings.debounce) := by
  cases known : strand.tracked? with
  | none =>
      rw [edit_unknown known] at scheduled
      cases scheduled
  | some tracked =>
      cases living : strand.living? tracked.source with
      | none =>
          rw [edit_gone known living] at scheduled
          cases scheduled
      | some document =>
          rw [edit_living known living] at scheduled ⊢
          have within : ¬strand.settings.maxChars < document.length := by
            intro above
            rw [if_pos above] at scheduled
            cases scheduled
          refine ⟨tracked, rfl, rfl, held, ?_, Nat.lt_add_of_pos_right debounce, numbered⟩
          simp only [if_neg within]
          rfl

/-- A run publishes on behalf of its edit. -/
theorem reading_published {tracked : Tracked} {config : WorkerConfig}
    {publication : Publication}
    (publishes : strand.reading tracked config = .published publication) :
    publication.generation = tracked.generation := by
  unfold reading at publishes
  split at publishes
  · cases publishes
  · split at publishes
    · cases publishes
    · cases publishes
      rfl

/-- What a step leaves under way for a document was so before or was armed by it. -/
theorem work_of_step {tracked : Tracked} {work : Work}
    (known : (strand.step step).tracked? = some tracked)
    (underWay : tracked.work? = some work) :
    strand.tracked? = some tracked ∨
      step.Edits strand.id ∧
      (∃ before, strand.tracked? = some before ∧
        tracked.generation = before.generation + 1) ∧
      work.phase = .sleeping (strand.clock + (strand.step step).settings.debounce) ∧
      (step = .act (.edit strand.id) → strand.answer step = .outcome .scheduled) := by
  obtain ⟨news, -, becomes⟩ := (strand.turned step).becomes
  rw [known] at becomes
  generalize same : some tracked = after at becomes
  cases becomes with
  | stays => exact .inl rfl
  | registers source fresh =>
      cases same
      cases underWay
  | @edits before work? knownBefore edits timer scheduled =>
      cases same
      exact .inr ⟨edits, ⟨before, knownBefore, rfl⟩, timer work underWay,
        fun isEdit => scheduled isEdit (Option.isSome_iff_exists.mpr ⟨work, underWay⟩)⟩
  | calls work? ending => cases ending <;> cases same <;> cases underWay
  | misses news unknown => cases same
  | drops known => cases same
  | @fires _ woken config origin =>
      cases ending : strand.reading woken config <;> rw [ending] at same <;> cases same <;>
        cases underWay
  | rests drops =>
      obtain ⟨before, -, rfl⟩ := Option.map_eq_some_iff.mp same.symm
      cases underWay

/-- Highlights that no call asked for are those of a run that fired. -/
theorem highlights_of_step {at_ : Nat} {publication : Publication}
    (uncalled : ¬step.Calls strand.id)
    (told : (at_, .highlights strand.id publication) ∈
      (strand.step step).events.drop strand.events.length) :
    ∃ tracked work, strand.tracked? = some tracked ∧ tracked.work? = some work ∧
      work.phase = .sleeping at_ ∧ publication.generation = tracked.generation := by
  obtain ⟨news, events, becomes⟩ := (strand.turned step).becomes
  rw [events, List.drop_left] at told
  generalize (strand.step step).tracked? = after at becomes
  cases becomes with
  | stays => cases told
  | registers source fresh => cases told
  | edits => cases told
  | calls work? ending news known calls => exact absurd calls uncalled
  | misses news unknown calls => exact absurd calls uncalled
  | drops known => simp at told
  | @fires deadline woken config origin armed =>
      obtain ⟨tracked, work, known, underWay, sleeps, rfl⟩ := timer?_eq_some armed
      obtain ⟨event, member, same⟩ := List.mem_map.mp told
      cases same
      rcases List.mem_cons.mp member with ends | returned
      · refine ⟨tracked, work, known, underWay, sleeps, ?_⟩
        cases ending : strand.reading (tracked.during { work with phase := .due }) config <;>
          rw [ending] at ends <;> cases ends
        exact reading_published ending
      · split at returned <;> simp at returned
  | rests drops => cases told

end Strand

end LogTint
