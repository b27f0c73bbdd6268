import LogTint.Proofs.Asking

/-!
# What a call is answered

A call that highlights a document at once shares the lock of the document with
every other run, and anything may happen to the document while the call waits for
the lock or for its computation.  What it returns agrees all the same with what
the host was told of its run: `calls_answered` says so of every history in which
the run comes to its end.
-/

namespace LogTint

/-- What a call for highlights can return, given the generation of its run. -/
inductive Answer.Returns (id : DocumentId) (generation : Nat) : Answer → Prop where
  | published {publication : Publication} (own : publication.generation = generation) :
      Returns id generation (.published (some publication))
  /-- The run was overtaken, or its text is over the ceiling. -/
  | nothing : Returns id generation (.published none)
  | closed : Returns id generation (.failure (.documentClosed id))
  | failed (reason : String) : Returns id generation (.failure (.computationFailed reason))

theorem Answer.publication?_eq_some_iff {answer : Answer} {publication : Publication} :
    answer.publication? = some publication ↔ answer = .published (some publication) := by
  cases answer <;> simp [publication?]

namespace Session

variable {debts : Debts} {session middle final before begun after : Session}
  {call run : Run} {id : DocumentId} {entry : Entry} {generation ceiling : Nat}
  {moves rest : List Move} {result : Answer}

/-! ## Runs that come to their end -/

/-- The moves up to the one with which the run of a generation ends. -/
inductive RunsUntil (id : DocumentId) (generation : Nat) :
    Session → List Move → Session → Prop where
  | stop {session : Session} (gone : session.findRun? id generation = none) :
      RunsUntil id generation session [] session
  | goes {session middle after : Session} {move : Move} {moves : List Move}
      (running : (session.findRun? id generation).isSome = true)
      (moved : session.move? move = some middle)
      (later : RunsUntil id generation middle moves after) :
      RunsUntil id generation session (move :: moves) after

theorem RunsUntil.reached (runs : RunsUntil id generation session moves after) :
    session.moves? moves = some after := by
  induction runs with
  | stop => rfl
  | goes _ moved _ induction => exact moves?_cons_iff.mpr ⟨_, moved, induction⟩

/-- No more moves are made once the run is over. -/
theorem RunsUntil.of_over (runs : RunsUntil id generation session moves after)
    (passed : session.Over id generation) : moves = [] ∧ after = session := by
  cases runs with
  | stop => exact ⟨rfl, rfl⟩
  | goes running =>
      obtain ⟨run, found⟩ := Option.isSome_iff_exists.mp running
      exact absurd (findRun?_key found) (passed.2.2 run (findRun?_mem found))

/-- The run of a call under way ends with the last of the moves. -/
theorem RunsUntil.ended (runs : RunsUntil call.id call.generation session moves after)
    (coherent : Coherent session.debts session) (underWay : session.UnderWay call) :
    ∃ earlier last middle run result, moves = earlier ++ [last] ∧
      session.moves? earlier = some middle ∧ middle.UnderWay call ∧ run ∈ middle.runs ∧
      run.key = call.key ∧ middle.Ends run result ∧ after.Ended call result := by
  induction runs with
  | stop gone =>
      obtain ⟨run, member, own⟩ := underWay.present
      exact absurd (Run.is_iff.mpr own) (List.find?_eq_none.mp gone run member)
  | @goes session middle after move moves _ moved later induction =>
      rcases underWay.move coherent moved with
        underWayLater | ⟨run, member, own, result, ends, ended⟩
      · obtain ⟨earlier, last, stage, run, result, split, reached, rest⟩ :=
          induction (coherent_of_moves (moves?_singleton moved) coherent) underWayLater
        exact ⟨move :: earlier, last, stage, run, result, by rw [split, List.cons_append],
          moves?_cons_iff.mpr ⟨middle, moved, reached⟩, rest⟩
      · obtain ⟨rfl, rfl⟩ := later.of_over ended.passed
        exact ⟨[], move, session, run, result, rfl, rfl, underWay, member, own, ends, ended⟩

theorem Ends.returns (ends : session.Ends run result) (own : run.key = (id, generation)) :
    result.Returns id generation := by
  have sameId : run.id = id := congrArg Prod.fst own
  cases ends with
  | overtaken | overrun => exact .nothing
  | dropped => exact sameId ▸ .closed
  | failed => exact .failed _
  | published => exact .published (congrArg Prod.snd own)

/-! ## Runs that nothing disturbs -/

/-- The computation of a run has not broken off. -/
def Unbroken (session : Session) (id : DocumentId) (generation : Nat) : Prop :=
  ∀ run ∈ session.runs, run.key = (id, generation) → ∀ reason, run.phase ≠ .failed reason

theorem Unbroken.keep {kind : EffectKind} {later : Debts}
    (unbroken : session.Unbroken id generation)
    (effect : Effect kind (debts, session) (later, final)) (coherent : Coherent debts session)
    (other : kind ≠ .breakdown (id, generation)) : final.Unbroken id generation := by
  intro run member own reason failed
  have notBare : run.phase.isBare ≠ true := by
    rw [failed]
    nofun
  cases (effect.descent coherent).runs run member with
  | kept earlierMember key _ _ phase =>
      exact unbroken _ earlierMember (key.symm.trans own) reason
        ((phase.resolve_right notBare).symm.trans failed)
  | read _ _ _ _ _ _ phase => cases phase.symm.trans failed
  | computed _ _ _ _ _ phase => cases phase.symm.trans failed
  | broken _ _ _ _ breakdown => exact other (own ▸ breakdown)
  | fresh _ _ _ _ bare => exact notBare bare

theorem unbroken_of_inner {later : Debts} (effects : Inner (debts, session) (later, final))
    (coherent : Coherent debts session) (unbroken : session.Unbroken id generation) :
    final.Unbroken id generation :=
  (effects.induct (fun debts session => Coherent debts session ∧ session.Unbroken id generation)
    (fun effect both => ⟨both.1.ofEffect effect, both.2.keep effect both.1 nofun⟩)
    ⟨coherent, unbroken⟩).2

theorem unbroken_of_moves (coherent : Coherent session.debts session)
    (unbroken : session.Unbroken id generation) (reached : session.moves? moves = some final)
    (none : ∀ reason, .fail id generation reason ∉ moves) : final.Unbroken id generation := by
  induction moves generalizing session with
  | nil =>
      cases reached
      exact unbroken
  | cons move moves induction =>
      obtain ⟨middle, moved, rest⟩ := moves?_cons_iff.mp reached
      obtain ⟨kind, marked, admits⟩ := (move?_moved coherent moved).marked
      have other : kind ≠ .breakdown (id, generation) := by
        rintro rfl
        obtain ⟨reason, rfl⟩ := admits
        exact none reason List.mem_cons_self
      have both := marked.induct
        (fun debts session => Coherent debts session ∧ session.Unbroken id generation)
        (fun which effect both => ⟨both.1.ofEffect effect, both.2.keep effect both.1 (by
          rcases which with rfl | rfl
          · nofun
          · exact other)⟩) ⟨coherent, unbroken⟩
      exact induction both.1 both.2 rest fun reason member =>
        none reason (List.mem_cons_of_mem _ member)

/-- A document is tracked at a generation and alive, and its text is within a
ceiling. -/
structure LeftAlone (session : Session) (id : DocumentId) (generation ceiling : Nat) :
    Prop where
  tracked : ∃ entry, session.registry.find? id = some entry ∧
    entry.generation = generation ∧ session.isAlive entry.source = true ∧
    ∀ text, session.textOf? entry.source = some text → text.length ≤ ceiling

/-- A run whose document is left alone ends with highlights. -/
theorem Ends.published_of_leftAlone (ends : session.Ends run result)
    (coherent : Coherent debts session) (present : session.dropped = false)
    (alone : session.LeftAlone id generation run.config.maxChars) (member : run ∈ session.runs)
    (own : run.key = (id, generation)) (unbroken : session.Unbroken id generation) :
    ∃ publication, result = .published (some publication) := by
  obtain ⟨entry, found, latest, alive, within⟩ := alone.tracked
  have here : run.id = id := congrArg Prod.fst own
  have foundRun : session.registry.find? run.id = some entry := here ▸ found
  have source := (coherent.bounded run member foundRun).2
  cases ends with
  | overtaken overtaken =>
      have agrees := coherent.agrees found (coherent.present present found)
      have current : run.key = (entry.id, entry.generation) := by
        rw [own, Registry.find?_id found, latest]
      have sameGeneration : entry.generation = run.generation := by
        rw [latest]
        exact (congrArg Prod.snd own).symm
      exact absurd (agrees.current run member current)
        (advanceState?_eq_none_iff.mp overtaken entry foundRun sameGeneration)
  | dropped gone =>
      rw [source, alive] at gone
      cases gone
  | @overrun document read above =>
      have text : session.textOf? entry.source = some document.text := by
        rw [textOf?, ← source, read, Option.map_some]
      exact absurd (Text.exceeds_iff.mp above) (Nat.not_lt.mpr (within _ text))
  | failed failed => exact absurd failed (unbroken run member own _)
  | published => exact ⟨_, rfl⟩

/-- Nothing else happens to a document while a call for it is under way.  The host
holds on to the scheduler, and the computation does not break off. -/
structure Undisturbed (before begun : Session) (rest : List Move) (after : Session)
    (id : DocumentId) (generation : Nat) : Prop where
  held : after.held = true
  alone : before.LeftAlone id generation before.settings.maxChars
  meanwhile : ∀ {earlier next later middle}, rest = earlier ++ next :: later →
    begun.moves? earlier = some middle →
      middle.LeftAlone id (generation + 1) before.settings.maxChars
  unbroken : ∀ reason, .fail id (generation + 1) reason ∉ rest

/-! ## Calls -/

/-- A call takes the place of what was asked for before. -/
structure Supersedes (before begun : Session) (id : DocumentId) (entry : Entry) : Prop where
  /-- The timer that was armed is cancelled. -/
  timer : ∀ {armed}, entry.armed = some armed →
    (∃ run ∈ before.runs, run.key = (id, armed) ∧ run.origin = .timer) ∧
      ∀ {moves later}, begun.moves? moves = some later →
        ∀ run ∈ later.runs, run.key ≠ (id, armed)
  counted : begun.metrics.superseded =
    before.metrics.superseded + if entry.armed.isSome then 1 else 0
  /-- No run of an earlier generation delivers anything any more. -/
  newer : ∀ {moves later}, begun.moves? moves = some later →
    ∃ new, later.log = before.log ++ new ∧
      ∀ {time publication}, (time, Event.highlights id publication) ∈ new →
        entry.generation < publication.generation

/-- The result of a call agrees with what the host is told of its run. -/
structure Answered (after : Session) (awaited : Bool) (id : DocumentId) (generation : Nat)
    (result : Answer) : Prop where
  told : after.Told (.call awaited) id result
  returns : result.Returns id generation
  published : ∀ {moves later publication}, after.moves? moves = some later →
    (result = .published (some publication) ↔
      later.deliveriesOf (id, generation) = [publication])
  silent : (∀ publication, result ≠ .published (some publication)) →
    ∀ {moves later}, after.moves? moves = some later →
      later.deliveriesOf (id, generation) = []
  closed : result = .failure (.documentClosed id) →
    ∀ {moves later}, after.moves? moves = some later →
      later.registry.contains id = false ∧ later.closings id = 1

theorem Ended.answered {awaited : Bool} (ended : after.Ended call result)
    (origin : call.origin = .call awaited)
    (returns : result.Returns call.id call.generation)
    (coherentBefore : Coherent before.debts before) (forgets : before.Forgets)
    (tracked : before.registry.contains call.id = true)
    (reached : before.moves? moves = some after) :
    after.Answered awaited call.id call.generation result := by
  have coherent := coherent_of_moves reached coherentBefore
  have delivered : ∀ {moves later}, after.moves? moves = some later →
      later.deliveriesOf (call.id, call.generation) = result.publication?.toList :=
    fun reached => (deliveriesOf_of_over reached coherent ended.passed).trans ended.delivered
  refine ⟨origin ▸ ended.told, returns, fun reached => ?_, fun unpublished _ _ reached => ?_,
    fun dropped moves later reachedLater => ?_⟩
  · rw [delivered reached, ← Answer.publication?_eq_some_iff]
    cases result.publication? <;> simp
  · rw [delivered reached, Option.toList_eq_nil_iff]
    apply Option.eq_none_iff_forall_ne_some.mpr
    exact fun publication same =>
      unpublished publication (Answer.publication?_eq_some_iff.mp same)
  · have untracked : later.registry.contains call.id = false := by
      rw [Registry.not_contains_iff]
      cases found : later.registry.find? call.id with
      | none => rfl
      | some entry =>
          obtain ⟨_, foundAfter, _⟩ :=
            entries_of_moves reachedLater coherent ended.passed.1 found
          cases foundAfter.symm.trans (ended.closed dropped)
    exact ⟨untracked, closings_of_left coherentBefore forgets tracked
      (moves?_append_iff.mpr ⟨after, reached, reachedLater⟩) untracked⟩

theorem supersedes_of_call {awaited : Bool} {move : Move}
    (coherent : Coherent before.debts before) (dated : before.Dated)
    (found : before.registry.find? id = some entry) (calls : before.Calls id awaited move)
    (moved : before.move? move = some begun) : before.Supersedes begun id entry := by
  have coherentBegun := coherent_of_moves (moves?_singleton moved) coherent
  have present := coherent.present_of_held calls.held
  have agrees := coherent.agrees found (coherent.present present found)
  have here := Registry.find?_id found
  constructor
  case timer =>
    intro armed isArmed
    obtain ⟨latest, run, member, runKey, timer⟩ := agrees.armed armed isArmed
    have passed := calls.cancels coherent found moved isArmed (Nat.le_of_eq latest)
    exact ⟨⟨run, member, here ▸ runKey, timer⟩,
      fun reached => (over_of_moves reached coherentBegun passed).2.2⟩
  case counted =>
    obtain ⟨_, _, _, _, same⟩ := calls.asks coherent found moved
    rw [same, requestLock_superseded]
    refine asked_superseded found (fun armed isArmed => ?_) _
    obtain ⟨_, run, member, runKey, _⟩ := agrees.armed armed isArmed
    exact ⟨run, member, here ▸ runKey⟩
  case newer =>
    intro moves later reached
    obtain ⟨known, ahead⟩ := calls.ahead coherent dated found moved
    obtain ⟨first, log, plain⟩ := calls.log coherent moved
    obtain ⟨rest, logLater, newer⟩ := newer_of_moves coherentBegun known ahead reached
    refine ⟨first ++ rest, by rw [logLater, log, List.append_assoc], fun member => ?_⟩
    rcases List.mem_append.mp member with now | then_
    · cases plain _ now
    · exact newer then_

section Asked

variable (awaited : Bool) (coherent : Coherent debts session)
  (found : session.registry.find? id = some entry)
include coherent found

theorem leftAlone_of_asked (alone : session.LeftAlone id entry.generation ceiling) :
    (session.asked id (.ofCall awaited id entry session.settings.workerConfig)).LeftAlone id
      (entry.generation + 1) ceiling := by
  obtain ⟨registry, runs, metrics, edited, _, asked⟩ :=
    session.asked_spec awaited coherent.distinct
  obtain ⟨same, foundSame, _, alive, within⟩ := alone.tracked
  cases found.symm.trans foundSame
  have foundLater := edited.find?_some found
  rw [if_pos rfl] at foundLater
  rw [asked]
  refine ⟨_, foundLater, entry.renewed_generation .pending, ?_⟩
  rw [Entry.renewed_source]
  exact ⟨alive, within⟩

theorem unbroken_of_asked :
    (session.asked id (.ofCall awaited id entry session.settings.workerConfig)).Unbroken id
      (entry.generation + 1) := by
  obtain ⟨registry, runs, metrics, _, kept, asked⟩ :=
    session.asked_spec awaited coherent.distinct
  have fresh := Unused.of_kept (unused_of_coherent coherent id found) kept
  rw [asked]
  intro run member own reason
  rcases List.mem_append.mp member with other | last
  · exact absurd own (fresh run other)
  · rw [List.mem_singleton.mp last]
    nofun

end Asked

/-- A call that nothing disturbs and that is answered at once is answered with
highlights. -/
theorem Undisturbed.published_at_once {awaited : Bool}
    (undisturbed : Undisturbed before begun rest after id entry.generation)
    (coherent : Coherent debts before)
    (found : before.registry.find? id = some entry) (held : before.held = true)
    (coherentAsked : Coherent debts
      (before.asked id (.ofCall awaited id entry before.settings.workerConfig)))
    (ends : (before.asked id (.ofCall awaited id entry before.settings.workerConfig)).Ends
      (.ofCall awaited id entry before.settings.workerConfig) result) :
    ∃ publication, result = .published (some publication) := by
  have present : (before.asked id
      (.ofCall awaited id entry before.settings.workerConfig)).dropped = false := by
    obtain ⟨_, _, _, _, _, asked⟩ := before.asked_spec awaited coherent.distinct
    rw [asked]
    exact coherent.present_of_held held
  exact ends.published_of_leftAlone coherentAsked present
    (leftAlone_of_asked awaited coherent found undisturbed.alone)
    (List.mem_append_right _ (List.mem_singleton_self _)) rfl
    (unbroken_of_asked awaited coherent found)

/-- A call that nothing disturbs is answered with highlights later on. -/
theorem Undisturbed.published_meanwhile {earlier : List Move} {last : Move}
    (undisturbed : Undisturbed before begun (earlier ++ [last]) after id generation)
    (coherent : Coherent begun.debts begun) (unbroken : begun.Unbroken id (generation + 1))
    (reached : begun.moves? (earlier ++ [last]) = some after)
    (reachedMiddle : begun.moves? earlier = some middle) (member : run ∈ middle.runs)
    (own : run.key = (id, generation + 1))
    (ceiling : run.config.maxChars = before.settings.maxChars)
    (ends : middle.Ends run result) :
    ∃ publication, result = .published (some publication) := by
  have coherentMiddle := coherent_of_moves reachedMiddle coherent
  have present : middle.dropped = false := by
    obtain ⟨same, reachedSame, lastMove⟩ := moves?_append_iff.mp reached
    cases reachedMiddle.symm.trans reachedSame
    exact present_of_moves lastMove coherentMiddle
      ((coherent_of_moves lastMove coherentMiddle).present_of_held undisturbed.held)
  have unbrokenMiddle := unbroken_of_moves coherent unbroken reachedMiddle fun reason broken =>
    undisturbed.unbroken reason (List.mem_append_left _ broken)
  exact ends.published_of_leftAlone coherentMiddle present
    (ceiling ▸ undisturbed.meanwhile rfl reachedMiddle) member own unbrokenMiddle

/-- The run of a call ends with a result that the call may return, and with highlights if
nothing disturbs it. -/
theorem result_of_call {awaited : Bool} {move : Move}
    (coherent : Coherent before.debts before) (dated : before.Dated)
    (found : before.registry.find? id = some entry) (calls : before.Calls id awaited move)
    (moved : before.move? move = some begun)
    (runs : RunsUntil id (entry.generation + 1) begun rest after) :
    ∃ result, after.Ended (.ofCall awaited id entry before.settings.workerConfig) result ∧
      result.Returns id (entry.generation + 1) ∧
      (Undisturbed before begun rest after id entry.generation →
        ∃ publication, result = .published (some publication)) := by
  let call := Run.ofCall awaited id entry before.settings.workerConfig
  obtain ⟨frames, debts, coherentAsked, goesOn, sameBegun⟩ :=
    calls.asks coherent found moved
  have goes : (before.asked id call).GoesOn call call begun := by
    rw [sameBegun]
    exact (asked_underWay awaited found coherent dated).requestLock
      (List.mem_append_right _ (List.mem_singleton_self _)) rfl frames
  rcases goes with underWay | ⟨_, result, ends, ended⟩
  case inr =>
    obtain ⟨rfl, rfl⟩ := runs.of_over ended.passed
    refine ⟨result, ended, ends.returns rfl, fun undisturbed => ?_⟩
    exact undisturbed.published_at_once (debts ▸ coherent) found calls.held coherentAsked ends
  case inl =>
    have coherentBegun := coherentAsked.ofEffects goesOn.effects
    have unbroken := unbroken_of_inner goesOn coherentAsked
      (unbroken_of_asked awaited coherent found)
    have reached := runs.reached
    have runsOf : RunsUntil call.id call.generation begun rest after := runs
    obtain ⟨earlier, last, middle, run, result, rfl, reachedMiddle, underWayMiddle, member,
      own, ends, ended⟩ := runsOf.ended coherentBegun underWay
    have ceiling : run.config.maxChars = before.settings.maxChars := by
      rw [underWayMiddle.same run member own]
      rfl
    exact ⟨result, ended, ends.returns own, fun undisturbed =>
      undisturbed.published_meanwhile coherentBegun unbroken reached reachedMiddle member own
        ceiling ends⟩

/-- Whatever a call for the highlights of a tracked document is answered agrees with what
the host is told, once the run of the call has come to its end. -/
theorem calls_answered {settings : Settings} {cache : Option Cache} {earlier : List Move}
    {awaited : Bool} {move : Move}
    (reached : (initial settings cache).moves? earlier = some before)
    (found : before.registry.find? id = some entry) (calls : before.Calls id awaited move)
    (moved : before.move? move = some begun)
    (runs : RunsUntil id (entry.generation + 1) begun rest after) :
    before.Supersedes begun id entry ∧
      ∃ result, after.Answered awaited id (entry.generation + 1) result ∧
        (Undisturbed before begun rest after id entry.generation →
          ∃ publication latest, result = .published (some publication) ∧
            publication.generation = entry.generation + 1 ∧
            after.registry.find? id = some latest ∧
            latest.generation = entry.generation + 1 ∧ latest.state = .idle) := by
  have start := Coherent.initial settings cache
  have coherent := coherent_of_moves reached start
  have dated : before.Dated := dated_of_moves reached start fun impossible =>
    absurd impossible List.not_mem_nil
  have forgets := forgets_of_moves reached start (Forgets.initial settings cache)
  obtain ⟨result, ended, returns, published⟩ :=
    result_of_call coherent dated found calls moved runs
  have answered : after.Answered awaited id (entry.generation + 1) result :=
    ended.answered rfl returns coherent forgets (Registry.contains_iff.mpr ⟨entry, found⟩)
      (moves?_cons_iff.mpr ⟨begun, moved, runs.reached⟩)
  refine ⟨supersedes_of_call coherent dated found calls moved, result, answered,
    fun undisturbed => ?_⟩
  obtain ⟨publication, rfl⟩ := published undisturbed
  obtain ⟨own⟩ := returns
  obtain ⟨latest, foundLatest, generation, idle⟩ := ended.settled rfl undisturbed.held
  exact ⟨publication, latest, rfl, own, foundLatest, generation, idle⟩

theorem calls_answered_of_firstCall :
    ∃ before begun after publication latest,
      (initial .standard none).moves? ((firstCall ['a']).take 5) = some before ∧
      before.move? (.highlightNow ⟨1⟩) = some begun ∧
      begun.moves? [.proceed, .complete ⟨1⟩ 1, .poll ⟨1⟩ 1 0] = some after ∧
      before.Supersedes begun ⟨1⟩ ⟨⟨1⟩, 0, .idle, 0, none⟩ ∧
      after.Answered true ⟨1⟩ 1 (.published (some publication)) ∧
      publication.generation = 1 ∧
      after.registry.find? ⟨1⟩ = some latest ∧ latest.state = .idle := by
  have reached : (initial .standard none).moves? ((firstCall ['a']).take 5) = some _ := rfl
  obtain ⟨supersedes, result, answered, published⟩ :=
    @calls_answered _ _ _ ⟨1⟩ ⟨⟨1⟩, 0, .idle, 0, none⟩
      [.proceed, .complete ⟨1⟩ 1, .poll ⟨1⟩ 1 0] .standard none _ true (.highlightNow ⟨1⟩)
      reached rfl (.awaited rfl) rfl (.goes rfl rfl (.goes rfl rfl (.goes rfl rfl (.stop rfl))))
  have ending := published <| by
    refine ⟨rfl, ⟨_, rfl, rfl, rfl, ?_⟩, ?_, ?_⟩
    · rintro _ ⟨⟩
      exact Nat.le_of_ble_eq_true rfl
    · intro earlier next later middle split reachedMiddle
      have within : ∀ {text : Text}, some ['a'] = some text →
          text.length ≤ Settings.standard.maxChars := by
        rintro _ ⟨⟩
        exact Nat.le_of_ble_eq_true rfl
      rcases earlier with _ | ⟨first, _ | ⟨second, _ | ⟨third, more⟩⟩⟩
      · cases reachedMiddle
        exact ⟨_, rfl, rfl, rfl, fun _ => within⟩
      · cases split
        cases reachedMiddle
        exact ⟨_, rfl, rfl, rfl, fun _ => within⟩
      · cases split
        cases reachedMiddle
        exact ⟨_, rfl, rfl, rfl, fun _ => within⟩
      · cases List.append_ne_nil_of_right_ne_nil more (List.cons_ne_nil next later)
          (List.cons.inj (List.cons.inj (List.cons.inj split).2).2).2.symm
    · simp
  obtain ⟨publication, latest, rfl, own, foundLatest, _, idle⟩ := ending
  exact ⟨_, _, _, publication, latest, reached, rfl, rfl, supersedes, answered, own,
    foundLatest, idle⟩

end Session

end LogTint
