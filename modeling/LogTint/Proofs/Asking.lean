import LogTint.Proofs.Departing
import LogTint.Proofs.Returning

/-!
# How a call begins

A call gives its document a new generation, cancels the run whose timer is armed
and asks for a run of its own.  From then on nothing is delivered on behalf of an
earlier run of the document.
-/

namespace LogTint

theorem Event.deliveryBy?_eq_some {key : DocumentId × Nat} {event : Event}
    {publication : Publication} (delivers : event.deliveryBy? key = some publication) :
    event = .highlights key.1 publication ∧ publication.generation = key.2 := by
  cases event with
  | highlights id delivered =>
      simp only [deliveryBy?, deliveryOf?, publication?, Option.filter_eq_some_iff,
        Option.map_eq_some_iff, decide_eq_true_eq] at delivers
      obtain ⟨⟨_, ⟨same, here⟩, rfl⟩, generation⟩ := delivers
      cases same
      have sameId : id = key.1 := here
      exact ⟨by rw [sameId], generation⟩
  | bypass | error | closed | acted | returned => cases delivers

namespace Session

variable {debts : Debts} {session final before begun : Session} {run : Run}
  {id : DocumentId} {entry : Entry} {generation : Nat} {moves : List Move}

/-! ## Deliveries -/

/-- A move delivers nothing on behalf of a run that is over. -/
theorem deliveriesOf_of_over (reached : session.moves? moves = some final)
    (coherent : Coherent session.debts session) (passed : session.Over id generation) :
    final.deliveriesOf (id, generation) = session.deliveriesOf (id, generation) := by
  refine (moves?_keeps
    (fun later => Coherent later.debts later ∧ later.Over id generation ∧
      later.deliveriesOf (id, generation) = session.deliveriesOf (id, generation)) ?_ reached
    ⟨coherent, passed, rfl⟩).2.2
  rintro session move after moved ⟨coherent, passed, same⟩
  have once := moves?_singleton moved
  refine ⟨coherent_of_moves once coherent, over_of_moves once coherent passed, ?_⟩
  obtain ⟨new, log, delivers⟩ := (move?_moved coherent moved).log coherent
  have nothing : new.filterMap (·.2.deliveryBy? (id, generation)) = [] := by
    rw [List.filterMap_eq_nil_iff]
    intro noted member
    rcases delivers with
      plain | ⟨run, text, highlights, entry, rest, _, _, publishes, rfl, plain⟩
    · exact Event.deliveryBy?_of_publication? (plain noted member)
    · rcases List.mem_cons.mp member with rfl | later
      · exact Event.deliveryBy?_other (passed.2.2 run publishes.member)
      · exact Event.deliveryBy?_of_publication? (plain noted later)
  rw [deliveriesOf_append log, nothing, List.append_nil, same]

/-- What is delivered of a document answers edits that are not behind its latest. -/
theorem newer_of_moves (coherent : Coherent session.debts session)
    (known : id.number < session.nextId)
    (ahead : ∀ entry, session.registry.find? id = some entry → generation < entry.generation)
    (reached : session.moves? moves = some final) :
    ∃ new, final.log = session.log ++ new ∧
      ∀ {time publication}, (time, Event.highlights id publication) ∈ new →
        generation < publication.generation := by
  induction moves generalizing session with
  | nil =>
      cases reached
      exact ⟨[], (List.append_nil _).symm, nofun⟩
  | cons move moves induction =>
      obtain ⟨middle, moved, rest⟩ := moves?_cons_iff.mp reached
      have once := moves?_singleton moved
      have knownMiddle : id.number < middle.nextId :=
        invariant_of_moves (fun _ later => id.number < later.nextId)
          (fun effect coherent known =>
            Nat.lt_of_lt_of_le known (effect.descent coherent).nextId) once coherent known
      have aheadMiddle : ∀ entry, middle.registry.find? id = some entry →
          generation < entry.generation := by
        intro entry found
        obtain ⟨earlier, foundBefore, behind, _⟩ := entries_of_moves once coherent known found
        exact Nat.lt_of_lt_of_le (ahead earlier foundBefore) behind
      obtain ⟨later, logLater, newer⟩ :=
        induction (coherent_of_moves once coherent) knownMiddle aheadMiddle rest
      obtain ⟨new, log, delivers⟩ := (move?_moved coherent moved).log coherent
      refine ⟨new ++ later, by rw [logLater, log, List.append_assoc], fun member => ?_⟩
      rcases List.mem_append.mp member with now | then_
      · rcases delivers with
          plain | ⟨run, text, highlights, entry, rest, _, _, publishes, rfl, plain⟩
        · cases plain _ now
        · rcases List.mem_cons.mp now with same | then_
          · cases same
            exact publishes.current ▸ ahead entry publishes.found
          · cases plain _ then_
      · exact newer then_

/-! ## The run that is asked for -/

/-- A move that calls for the highlights of a document.  The host waits for the
result, or a call is begun and not waited for. -/
inductive Calls (session : Session) (id : DocumentId) : Bool → Move → Prop where
  | awaited (held : session.held = true) : Calls session id true (.highlightNow id)
  | begun {frames} (held : session.held = true)
      (waiting : session.control = .perform (.startNow id) frames) :
      Calls session id false .proceed

theorem Calls.begins {awaited : Bool} {call : Move} (calls : before.Calls id awaited call)
    (moved : before.move? call = some begun) :
    ∃ frames, before.debts = .ofFrames frames ∧
      begun = before.beginNow awaited id frames := by
  cases calls with
  | awaited held =>
      cases move?_makes moved with
      | highlightNow idle => exact ⟨[], debts_of_idle idle, if_pos held⟩
  | @begun frames held waiting =>
      refine ⟨frames, debts_of_perform waiting, ?_⟩
      rw [(proceed_of_move moved).2, proceed, waiting]
      simp [perform, held]

/-- The move that calls delivers nothing. -/
theorem Calls.log {awaited : Bool} {call : Move} (calls : before.Calls id awaited call)
    (coherent : Coherent before.debts before) (moved : before.move? call = some begun) :
    ∃ new, begun.log = before.log ++ new ∧
      ∀ noted ∈ new, noted.2.publication? = none := by
  obtain ⟨new, log, plain | ⟨run, _, _, _, _, _, poll, _⟩⟩ :=
    (move?_moved coherent moved).log coherent
  · exact ⟨new, log, plain⟩
  · cases calls <;> cases poll

section Asked

variable (awaited : Bool) (found : session.registry.find? id = some entry)
include found

theorem asked_inner (frames : List Frame) :
    Inner (.ofFrames frames, session)
      (.ofFrames frames,
        session.asked id (.ofCall awaited id entry session.settings.workerConfig)) := by
  refine (oweEdit_inner _ session id).trans ((beginCall_inner _ session).trans ?_)
  refine .head (.call awaited found) (.single (.weaken ?_ (List.Subset.refl _) rfl))
  exact Debts.settle_oweEdit_edits (.ofFrames frames) id

omit found in
theorem asked_spec (distinct : Run.Distinct session.runs) :
    ∃ registry runs metrics,
      Registry.Edited
        (fun other entry => if other = id then entry.renewed .pending else entry)
        session.registry registry ∧
      Run.Kept (fun key => ¬(key.1 = id ∧ session.IsArmed key)) session.runs runs ∧
      session.asked id (.ofCall awaited id entry session.settings.workerConfig) =
        { session.beginCall with
          registry
          runs := runs ++ [.ofCall awaited id entry session.settings.workerConfig]
          metrics } := by
  obtain ⟨registry, runs, metrics, edited, kept, renewed⟩ :=
    session.beginCall.renew_spec distinct id .pending
  refine ⟨registry, runs, metrics, edited, kept, ?_⟩
  unfold asked
  rw [renewed]

/-- The run of a call is under way as soon as it is asked for. -/
theorem asked_underWay (coherent : Coherent debts session) (dated : session.Dated) :
    (session.asked id (.ofCall awaited id entry session.settings.workerConfig)).UnderWay
      (.ofCall awaited id entry session.settings.workerConfig) := by
  obtain ⟨registry, runs, metrics, edited, kept, asked⟩ :=
    session.asked_spec awaited coherent.distinct
  have fresh := Unused.of_kept (unused_of_coherent coherent id found) kept
  rw [asked]
  constructor
  case distinct => exact kept.distinct.append fresh
  case present => exact ⟨_, List.mem_append_right _ (List.mem_singleton_self _), rfl⟩
  case same =>
    intro run member own
    rcases List.mem_append.mp member with other | last
    · exact absurd own (fresh run other)
    · rw [List.mem_singleton.mp last]
  case spared =>
    intro later foundLater
    obtain ⟨earlier, foundBefore, rfl⟩ := edited.exists_of_find? foundLater
    cases found.symm.trans foundBefore
    rw [Run.ofCall_id, if_pos rfl]
    refine ⟨Nat.le_of_eq (entry.renewed_generation .pending).symm, ?_⟩
    rw [Entry.renewed_armed]
    nofun
  case known => exact coherent.known found
  case silent =>
    refine List.filterMap_eq_nil_iff.mpr fun noted member => ?_
    apply Option.eq_none_iff_forall_ne_some.mpr
    intro publication delivers
    obtain ⟨event, generation⟩ := Event.deliveryBy?_eq_some delivers
    have same : noted.2 = .highlights id publication := event
    have delivered : (noted.1, Event.highlights id publication) ∈ session.log := by
      rw [← same]
      exact member
    have behind := (dated delivered).2.1 entry found
    have latest : publication.generation = entry.generation + 1 := generation
    omega

/-- The run whose timer is armed is over as soon as the call has asked for its own. -/
theorem asked_over (coherent : Coherent debts session) (armed : entry.armed = some generation)
    (behind : generation ≤ entry.generation) :
    (session.asked id (.ofCall awaited id entry session.settings.workerConfig)).Over id
      generation := by
  obtain ⟨registry, runs, metrics, edited, kept, asked⟩ :=
    session.asked_spec awaited coherent.distinct
  rw [asked]
  refine ⟨coherent.known found, ?_, ?_⟩
  · intro later foundLater
    obtain ⟨earlier, foundBefore, rfl⟩ := edited.exists_of_find? foundLater
    cases found.symm.trans foundBefore
    rw [if_pos rfl, Entry.renewed_generation]
    exact Nat.le_succ_of_le behind
  · intro run member sameKey
    rcases List.mem_append.mp member with other | last
    · have isArmed : session.IsArmed (id, generation) := isArmed_iff.mpr ⟨entry, found, armed⟩
      exact sameKey ▸ kept.keeps_of_mem other <| ⟨rfl, isArmed⟩
    · rw [List.mem_singleton.mp last] at sameKey
      have latest : entry.generation + 1 = generation := congrArg Prod.snd sameKey
      omega

end Asked

/-- A call asks for its run, which goes on as far as it can in the same move. -/
theorem Calls.asks {awaited : Bool} {call : Move} (calls : before.Calls id awaited call)
    (coherent : Coherent before.debts before)
    (found : before.registry.find? id = some entry)
    (moved : before.move? call = some begun) :
    ∃ frames, before.debts = .ofFrames frames ∧
      Coherent (.ofFrames frames)
        (before.asked id (.ofCall awaited id entry before.settings.workerConfig)) ∧
      Inner
        (.ofFrames frames,
          before.asked id (.ofCall awaited id entry before.settings.workerConfig))
        (begun.debts, begun) ∧
      begun =
        (before.asked id (.ofCall awaited id entry before.settings.workerConfig)).requestLock
          (.ofCall awaited id entry before.settings.workerConfig) frames := by
  obtain ⟨frames, debts, rfl⟩ := calls.begins moved
  rw [beginNow_of_found found]
  rw [debts] at coherent
  refine ⟨frames, debts, coherent.ofEffects (asked_inner awaited found frames).effects, ?_, rfl⟩
  exact requestLock_inner (List.mem_append_right _ (List.mem_singleton_self _)) rfl frames

theorem Calls.held {awaited : Bool} {call : Move} (calls : before.Calls id awaited call) :
    before.held = true := by
  cases calls with
  | awaited held | begun held => exact held

/-- The timer that a call cancels is over for good. -/
theorem Calls.cancels {awaited : Bool} {call : Move} (calls : before.Calls id awaited call)
    (coherent : Coherent before.debts before)
    (found : before.registry.find? id = some entry)
    (moved : before.move? call = some begun) (armed : entry.armed = some generation)
    (behind : generation ≤ entry.generation) : begun.Over id generation := by
  obtain ⟨_, _, coherentAsked, goesOn, _⟩ := calls.asks coherent found moved
  exact (goesOn.induct
    (fun debts session => Coherent debts session ∧ session.Over id generation)
    (fun effect both => ⟨both.1.ofEffect effect, both.2.stays (effect.descent both.1)⟩)
    ⟨coherentAsked, asked_over awaited found coherent armed behind⟩).2

/-- Once a call has begun, the document is past the generation that it had before. -/
theorem Calls.ahead {awaited : Bool} {call : Move} (calls : before.Calls id awaited call)
    (coherent : Coherent before.debts before) (dated : before.Dated)
    (found : before.registry.find? id = some entry)
    (moved : before.move? call = some begun) :
    id.number < begun.nextId ∧
      ∀ later, begun.registry.find? id = some later → entry.generation < later.generation := by
  obtain ⟨frames, _, _, _, same⟩ := calls.asks coherent found moved
  have goes := (asked_underWay awaited found coherent dated).requestLock
    (List.mem_append_right _ (List.mem_singleton_self _)) rfl frames
  rw [← same] at goes
  rcases goes with underWay | ⟨_, _, _, ended⟩
  · exact ⟨underWay.known, fun later foundLater => (underWay.spared foundLater).1⟩
  · exact ⟨ended.passed.1, ended.passed.2.1⟩

/-! ## The timer that is cancelled -/

/-- An edit counts the timer that it cancels. -/
theorem supersede_superseded (found : session.registry.find? id = some entry)
    (present : ∀ generation, entry.armed = some generation →
      ∃ run ∈ session.runs, run.key = (id, generation)) :
    (session.supersede id).metrics.superseded =
      session.metrics.superseded + if entry.armed.isSome then 1 else 0 := by
  let next (entry : Entry) : Entry := { entry with generation := entry.generation + 1 }
  let bumped := session.modifyEntry id next
  have foundBumped : bumped.registry.find? id = some (next entry) :=
    Registry.find?_modify_self (fun _ => rfl) found
  have cancels : (bumped.cancelArmed id).1 = entry.armed.isSome := by
    cases armed : entry.armed with
    | none => exact cancelArmed_fst_unarmed foundBumped armed
    | some generation =>
        obtain ⟨run, member, runKey⟩ := present generation armed
        exact cancelArmed_fst foundBumped armed member runKey
  have metrics : (bumped.cancelArmed id).2.metrics = session.metrics :=
    congrArg Prod.snd (cancelArmed_tally bumped id)
  have superseded : session.supersede id =
      if (bumped.cancelArmed id).1 then (bumped.cancelArmed id).2.count .superseded
      else (bumped.cancelArmed id).2 := rfl
  rw [superseded, cancels]
  split
  · rw [count, metrics]
    rfl
  · rw [metrics, UInt64.add_zero]

theorem asked_superseded (found : session.registry.find? id = some entry)
    (present : ∀ generation, entry.armed = some generation →
      ∃ run ∈ session.runs, run.key = (id, generation)) (call : Run) :
    (session.asked id call).metrics.superseded =
      session.metrics.superseded + if entry.armed.isSome then 1 else 0 :=
  @supersede_superseded session.beginCall id entry found present

theorem finish_metrics (session : Session) (run : Run) (result : Answer) :
    (session.finish run result).metrics = session.metrics :=
  congrArg Prod.snd (finish_tally session run result)

theorem finishDropped_superseded (session : Session) (run : Run) :
    (session.finishDropped run).metrics.superseded = session.metrics.superseded := by
  rw [finishDropped, finish_metrics]
  by_cases tracked : session.registry.contains run.id = true
  · rw [closeDropped_tracked tracked]
    rfl
  · rw [closeDropped_untracked tracked]
    rfl

theorem takeSnapshot_superseded (session : Session) (run : Run) :
    (session.takeSnapshot run).metrics.superseded = session.metrics.superseded := by
  obtain ⟨text, _, taken⟩ := takeSnapshot_eq session run
  rw [taken]
  split
  · rw [finishOversized, finish_metrics]
    cases advance : (session.modifySource run.source Source.endReading).advanceState? run
        .computing .idle with
    | none => rfl
    | some advanced =>
        obtain ⟨_, _, _, _, _, _, rfl⟩ := advanceState?_spec advance
        rfl
  · rfl

/-- A run that goes on cancels no timer. -/
theorem requestLock_superseded (session : Session) (run : Run) (frames : List Frame) :
    (session.requestLock run frames).metrics.superseded = session.metrics.superseded := by
  unfold requestLock beginWork
  split
  · rfl
  · cases advance : session.advanceState? run .pending .computing with
    | none =>
        have ended := finish_metrics (session.count .discarded) run (.published none)
        exact (congrArg Metrics.superseded ended).trans rfl
    | some advanced =>
        obtain ⟨_, _, _, _, _, _, rfl⟩ := advanceState?_spec advance
        dsimp only
        split
        · unfold readSource
          dsimp only
          split
          · exact finishDropped_superseded _ run
          · split
            · exact takeSnapshot_superseded _ _
            · rfl
        · exact finishDropped_superseded _ run

end Session

end LogTint
