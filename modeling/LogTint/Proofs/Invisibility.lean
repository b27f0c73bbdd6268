import LogTint.Proofs.Moves
import LogTint.Proofs.TwinMoves
import LogTint.Schedule.Report

/-!
# A host cannot tell whether there is a cache

A host takes the same steps twice, with an empty cache and without one.  The
sessions are twins after every step, so the reports tell the same unless the
host asks for the cache.  Only the counters show that some computations were
spared.  Nothing is said of the time that computations take, which may be any other
in the second run.
-/

namespace LogTint

/-- Whether a step asks for the cache. -/
def Step.readsCache : Step → Bool
  | .act action => action.readsCache
  | _ => false

/-- What a host is told of the documents it has registered. -/
def Standing.listing (standing : Standing) : List DocumentInfo × Nat :=
  (standing.documents, standing.count)

namespace Report

/-- What happened since the last report, without the answers that tell of the
cache. -/
def veiledEvents (report : Report) : List (Nat × Event) :=
  report.events.map (Prod.map id Event.veiled)

/-- A report with a cache and one without tell the same of a step. -/
structure Agrees (step : Step) (cached plain : Report) : Prop where
  answer : step.readsCache = false → cached.answer = plain.answer
  clock : cached.clock = plain.clock
  events : cached.veiledEvents = plain.veiledEvents
  metrics : cached.metrics.Twins plain.metrics
  listing : cached.standing.map Standing.listing = plain.standing.map Standing.listing

/-- The reports on one step after the other tell the same. -/
inductive AllAgree : List Step → List Report → List Report → Prop where
  | nil : AllAgree [] [] []
  | cons {step : Step} {cached plain : Report} {steps : List Step}
      {cachedLater plainLater : List Report}
      (first : Agrees step cached plain)
      (later : AllAgree steps cachedLater plainLater) :
      AllAgree (step :: steps) (cached :: cachedLater) (plain :: plainLater)

end Report

namespace Handler

theorem admits_veiled (handler : Handler) (event : Event) :
    handler.admits event.veiled = handler.admits event := by
  cases event <;> rfl

end Handler

theorem Event.veiled_documentNumber (event : Event) :
    event.veiled.documentNumber = event.documentNumber := by
  cases event <;> rfl

namespace Session

variable {unseen : Bool} {session cached plain : Session}

/-- What asks for the cache is answered at once, whoever waits for it. -/
theorem perform_of_readsCache (session : Session) {action : Action}
    (asks : action.readsCache = true) (control : Control) :
    ∃ answer, ∀ frames, perform { session with control } action frames =
      (session.perform action []).answering answer frames := by
  cases held : session.held with
  | false =>
      refine ⟨.noScheduler, fun frames => ?_⟩
      cases action with
      | clearCache | describe => simp [perform, held, Action.needsScheduler, answering]
      | _ => cases asks
  | true =>
      cases action with
      | clearCache =>
          exact ⟨.flag session.cache.isSome, fun frames => by
            simp [perform, performAtOnce?, held, answering]⟩
      | describe =>
          exact ⟨.description (describe { session with control }), fun frames => by
            simp [perform, performAtOnce?, held, answering]⟩
      | _ => cases asks

/-- A host that asks for the cache is answered in three moves. -/
theorem act_settle_of_readsCache (session : Session) {action : Action}
    (asks : action.readsCache = true) :
    ∃ answer, (session.act action).settle =
      settleWithin ((session.act .sweep).workload - 3)
        { session.perform action [] with control := .idle, answer } := by
  have enough : 3 ≤ (session.act .sweep).workload := by
    simp only [workload, act, actionWorkload]
    omega
  obtain ⟨later, moves⟩ := Nat.exists_eq_add_of_le' enough
  -- The three moves: the action is carried out, the host is told, and nothing is
  -- left to do.
  obtain ⟨answer, performed⟩ :=
    perform_of_readsCache session asks (.perform action [.host])
  let asked := (session.perform action []).answering answer [.host]
  have begun : (session.act action).proceed = asked := performed [.host]
  refine ⟨answer, ?_⟩
  calc (session.act action).settle
    _ = (session.act action).settleWithin (later + 3) := by
      rw [← moves]
      rfl
    _ = settleWithin later asked.proceed.proceed := by
      rw [settleWithin_busy rfl, begun, settleWithin_busy rfl, settleWithin_busy rfl]
    _ = _ := by
      rw [moves, Nat.add_sub_cancel]
      rfl

namespace Twins

theorem awaiting (twins : Twins unseen cached plain) :
    Twins false cached.awaiting plain.awaiting :=
  { twins with answer := fun _ => rfl }

theorem askCache (twins : Twins unseen cached plain) {action : Action}
    (asks : action.readsCache = true) :
    Twins true (cached.act action).settle (plain.act action).settle := by
  obtain ⟨left, cachedSettled⟩ := act_settle_of_readsCache cached asks
  obtain ⟨right, plainSettled⟩ := act_settle_of_readsCache plain asks
  have acted : Twins unseen (cached.act .sweep) (plain.act .sweep) :=
    twins.act rfl
  have performed := twins.perform action [] fun _ => rfl
  rw [cachedSettled, plainSettled, acted.workload]
  apply settleWithin
  exact { performed with
    control := .idle
    answer := nofun }

theorem step (twins : Twins unseen cached plain) (step : Step) :
    Twins step.readsCache (cached.step step) (plain.step step) := by
  cases step with
  | create source => exact (twins.awaiting.create source).settle
  | act action =>
      cases asks : action.readsCache with
      | false =>
          rw [Step.readsCache, asks]
          exact (twins.awaiting.act asks).settle
      | true =>
          rw [Step.readsCache, asks]
          exact twins.awaiting.askCache asks
  | highlightNow id => exact (twins.awaiting.highlightNow id).settle
  | advance duration => exact (twins.advance duration).awaiting

theorem log_length (twins : Twins unseen cached plain) :
    plain.log.length = cached.log.length := by
  have lengths := congrArg List.length twins.log
  rwa [veiledLog, veiledLog, List.length_map, List.length_map] at lengths

theorem standing? (twins : Twins unseen cached plain) :
    cached.standing?.map Standing.listing = plain.standing?.map Standing.listing := by
  rw [Session.standing?, Session.standing?, twins.held, twins.registry]
  split <;> rfl

/-- What the host is told of is chosen and put in order without regard to the
answers that tell of the cache. -/
theorem veiledEvents_reportSince (session earlier : Session) (handler : Handler) :
    (session.reportSince earlier handler).veiledEvents =
      ((session.veiledLog.drop earlier.log.length).filter
        fun event => handler.admits event.2).mergeSort eventLe := by
  have admitted : (fun event : Nat × Event => handler.admits event.2) ∘
      Prod.map id Event.veiled = fun event => handler.admits event.2 :=
    funext fun event => handler.admits_veiled event.2
  rw [Report.veiledEvents, veiledLog, Session.reportSince, ← List.map_drop,
    List.filter_map, admitted]
  apply List.map_mergeSort
  intro left _ right _
  simp [eventLe, Event.veiled_documentNumber]

theorem reportSince {cachedEarlier plainEarlier : Session} {before : Bool}
    {step : Step} (twins : Twins step.readsCache cached plain)
    (earlier : Twins before cachedEarlier plainEarlier) (handler : Handler) :
    Report.Agrees step (cached.reportSince cachedEarlier handler)
      (plain.reportSince plainEarlier handler) where
  answer := fun elsewhere => (twins.answer elsewhere).symm
  clock := twins.clock.symm
  events := by
    rw [veiledEvents_reportSince, veiledEvents_reportSince, twins.log,
      earlier.log_length]
  metrics := twins.metrics
  listing := twins.standing?

theorem run (twins : Twins unseen cached plain) (handler : Handler)
    (steps : List Step) :
    Report.AllAgree steps (cached.run handler steps) (plain.run handler steps) := by
  induction steps generalizing unseen cached plain with
  | nil => exact .nil
  | cons step later induction =>
      have stepped := twins.step step
      exact .cons (stepped.reportSince twins handler) (induction stepped)

end Twins

/-- With a cache that is sound a session begins as the twin of one without. -/
theorem initial_twins (settings : Settings) {cache : Cache} (sound : cache.Sound)
    (stopwatch other : Run → Nat) :
    Twins false (initial settings (some cache) stopwatch)
      (initial settings none other) where
  clock := rfl
  sources := rfl
  settings := rfl
  registry := rfl
  nextId := rfl
  notices := rfl
  held := rfl
  calls := rfl
  dropped := rfl
  runs := rfl
  usesCache := nofun
  ahead := nofun
  sound := ⟨cache, rfl, sound⟩
  without := rfl
  metrics := ⟨rfl, rfl, rfl⟩
  control := .idle
  answer := fun _ => rfl
  log := rfl

/-- Whatever steps a host takes, its reports tell the same with a cache that is
empty at first as without one. -/
theorem cache_invisible (handler : Handler) (settings : Settings)
    (keyOf : Text → HighlightConfig → UInt64) (capacity lifetime : Nat)
    (stopwatch other : Run → Nat) (steps : List Step) :
    Report.AllAgree steps
      ((initial settings (some (.empty keyOf capacity lifetime)) stopwatch).run
        handler steps)
      ((initial settings none other).run handler steps) :=
  (initial_twins settings (Cache.empty_sound keyOf capacity lifetime) stopwatch
    other).run handler steps

/-- The cache spares the second computation of the same text. -/
example :
    let steps : List Step :=
      [.create (.quiet ['a'] true .tracked), .act (.register 0), .highlightNow ⟨1⟩,
        .highlightNow ⟨1⟩]
    ((initial .standard (some (.empty Cache.contentKey 1 1000))).steps
        steps).metrics.computations = 1 ∧
      ((initial .standard none).steps steps).metrics.computations = 2 :=
  ⟨rfl, rfl⟩

end Session

end LogTint
