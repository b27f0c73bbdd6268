import LogTint.Proofs.Books
import LogTint.Proofs.UnderWay

/-!
# Calls that return

A run ends where it goes on, and nowhere else: it was overtaken, its document
was given up, its text is over the ceiling, its computation broke off, or it
publishes.  Whoever asked for it is told which, in the same move.  `GoesOn` says
so for one call under way and whichever run goes on, and `goesOn_of_move` for
every move.
-/

namespace LogTint

/-- The highlights that an answer hands over. -/
def Answer.publication? : Answer → Option Publication
  | .published publication => publication
  | _ => none

/-- The run of a call for a document with a given entry. -/
def Run.ofCall (awaited : Bool) (id : DocumentId) (entry : Entry) (config : WorkerConfig) :
    Run where
  id
  generation := entry.generation + 1
  source := entry.source
  config
  origin := .call awaited
  phase := .due

@[simp] theorem Run.ofCall_key (awaited : Bool) (id : DocumentId) (entry : Entry)
    (config : WorkerConfig) :
    (ofCall awaited id entry config).key = (id, entry.generation + 1) := rfl

@[simp] theorem Run.ofCall_id (awaited : Bool) (id : DocumentId) (entry : Entry)
    (config : WorkerConfig) : (ofCall awaited id entry config).id = id := rfl

@[simp] theorem Run.ofCall_generation (awaited : Bool) (id : DocumentId) (entry : Entry)
    (config : WorkerConfig) :
    (ofCall awaited id entry config).generation = entry.generation + 1 := rfl

namespace Session

variable {session start after : Session} {call run : Run} {id : DocumentId}
  {result : Answer}

/-- Why a run that goes on ends, and with which result. -/
inductive Ends (session : Session) (run : Run) : Answer → Prop where
  | overtaken {after : DocumentState}
      (overtaken : session.advanceState? run run.phase.state after = none) :
      Ends session run (.published none)
  | dropped (gone : session.isAlive run.source = false) :
      Ends session run (.failure (.documentClosed run.id))
  | overrun {document : Source} (source : session.sources[run.source]? = some document)
      (above : document.text.exceeds run.config.maxChars = true) :
      Ends session run (.published none)
  | failed {reason : String} (failed : run.phase = .failed reason) :
      Ends session run
        (.failure (.computationFailed (HighlightError.computationFailed reason).message))
  | published {text : Text} {highlights : Highlights} {lookup : Lookup}
      (computed : run.phase = .computed text highlights lookup) :
      Ends session run (.published (some ⟨run.generation, text, highlights⟩))

/-- Whoever asked for a run has just been handed its result. -/
def Told (session : Session) (origin : Origin) (id : DocumentId) (result : Answer) :
    Prop :=
  match origin with
  | .timer => True
  | .call true => session.answer = result
  | .call false => session.log.getLast? = some (session.clock, .returned id result)

/-- The run of a call has ended with a result. -/
structure Ended (session : Session) (call : Run) (result : Answer) : Prop where
  told : session.Told call.origin call.id result
  passed : session.Over call.id call.generation
  /-- What was delivered on its behalf is what it hands over. -/
  delivered : session.deliveriesOf call.key = result.publication?.toList
  closed : result = .failure (.documentClosed call.id) →
    session.registry.find? call.id = none
  settled : result.publication?.isSome = true → session.held = true →
    ∃ entry, session.registry.find? call.id = some entry ∧
      entry.generation = call.generation ∧ entry.state = .idle

namespace Ended

theorem answering (ended : session.Ended call result) (answer : Answer)
    (frames : List Frame) : (session.answering answer frames).Ended call result :=
  ⟨ended.told, ended.passed, ended.delivered, ended.closed, ended.settled⟩

theorem close (ended : session.Ended call result) (distinct : Run.Distinct session.runs)
    (released : session.held = false) : session.close.Ended call result := by
  obtain ⟨registry, runs, edited, kept, closed⟩ := session.close_spec distinct
  rw [closed]
  obtain ⟨known, behind, gone⟩ := ended.passed
  refine ⟨ended.told, ⟨known, fun entry found => ?_, fun run member => ?_⟩,
    ended.delivered, fun dropped => ?_, ?_⟩
  · obtain ⟨earlier, foundBefore, rfl⟩ := edited.exists_of_find? found
    exact behind earlier foundBefore
  · obtain ⟨earlier, earlierMember, _, continues⟩ := kept.origin run member
    rw [continues.key]
    exact gone earlier earlierMember
  · exact (edited.find? call.id).trans (by rw [ended.closed dropped, Option.map_none])
  · intro _ held
    cases released.symm.trans held

theorem endCall (ended : session.Ended call result) (distinct : Run.Distinct session.runs) :
    session.endCall.Ended call result := by
  have left : Ended { session with calls := session.calls - 1 } call result :=
    ⟨ended.told, ended.passed, ended.delivered, ended.closed, ended.settled⟩
  unfold Session.endCall
  dsimp only
  split
  case isTrue last => exact left.close distinct (by simpa using last.2.1)
  case isFalse => exact left

/-- A run that ends hands its result to whoever asked for it. -/
theorem of_finish (distinct : Run.Distinct session.runs)
    (own : run = { call with phase := run.phase })
    (known : call.id.number < session.nextId)
    (behind : ∀ entry, session.registry.find? call.id = some entry →
      call.generation ≤ entry.generation)
    (delivered : session.deliveriesOf call.key = result.publication?.toList)
    (closed : result = .failure (.documentClosed call.id) →
      session.registry.find? call.id = none)
    (settled : result.publication?.isSome = true →
      ∃ entry, session.registry.find? call.id = some entry ∧
        entry.generation = call.generation ∧ entry.state = .idle) :
    (session.finish run result).Ended call result := by
  have sameKey : run.key = call.key := by rw [own, Run.key_withPhase]
  have sameId : run.id = call.id := congrArg Prod.fst sameKey
  have sameOrigin : run.origin = call.origin := by rw [own]
  have kept := removeRun_runs session distinct run
  let removed : Session := { session with runs := (session.removeRun run).runs }
  have passed : removed.Over call.id call.generation := by
    refine ⟨known, behind, fun other member => ?_⟩
    rw [show (call.id, call.generation) = run.key from sameKey.symm]
    exact kept.keeps_of_mem member
  rw [finish, sameOrigin, sameId, removeRun_eq]
  unfold reply
  split
  case h_1 timer =>
      exact ⟨by rw [timer]; trivial, passed, delivered, closed, fun some _ => settled some⟩
  case h_2 awaited =>
      have answered : Ended { removed with answer := result } call result :=
        ⟨by rw [awaited]; rfl, passed, delivered, closed, fun some _ => settled some⟩
      exact answered.endCall kept.distinct
  case h_3 unawaited =>
      have noted : (removed.note (.returned call.id result)).Ended call result := by
        refine ⟨?_, passed, (deliveriesOf_note removed _ rfl).trans delivered, closed,
          fun some _ => settled some⟩
        rw [unawaited]
        exact List.getLast?_append_of_ne_nil _ (List.cons_ne_nil _ _)
      exact noted.endCall kept.distinct

end Ended

/-- A call is still under way after a run has gone on, or it was its run and has
ended. -/
def GoesOn (start : Session) (run call : Run) (after : Session) : Prop :=
  after.UnderWay call ∨
    run.key = call.key ∧ ∃ result, start.Ends run result ∧ after.Ended call result

namespace GoesOn

theorem answering (goesOn : start.GoesOn run call after) (answer : Answer)
    (frames : List Frame) : start.GoesOn run call (after.answering answer frames) :=
  goesOn.imp (·.answering answer frames) fun ⟨own, result, ends, ended⟩ =>
    ⟨own, result, ends, ended.answering answer frames⟩

/-- A run ends without highlights. -/
theorem of_finish (underWay : session.UnderWay call)
    (called : run.key = call.key → run = { call with phase := run.phase }) (phase : Phase)
    (ends : start.Ends run result) (undelivered : result.publication? = none)
    (closed : result = .failure (.documentClosed run.id) →
      session.registry.find? run.id = none) :
    start.GoesOn run call (session.finish { run with phase } result) := by
  by_cases own : run.key = call.key
  · have sameId : run.id = call.id := congrArg Prod.fst own
    refine .inr ⟨own, result, ends, .of_finish underWay.distinct ?_ underWay.known
      (fun _ found => (underWay.spared found).1) ?_ ?_ ?_⟩
    · rw [called own]
    · rw [underWay.silent, undelivered, Option.toList_none]
    · rwa [← sameId]
    · rw [undelivered]
      nofun
  · have other : Run.key { run with phase } ≠ call.key := own
    exact .inl (underWay.finish other result)

theorem of_finishStale (underWay : session.UnderWay call)
    (called : run.key = call.key → run = { call with phase := run.phase })
    (ends : start.Ends run (.published none)) :
    start.GoesOn run call (session.finishStale run) :=
  of_finish (underWay.count .discarded) called run.phase ends rfl nofun

theorem of_finishDropped (underWay : session.UnderWay call)
    (called : run.key = call.key → run = { call with phase := run.phase })
    (gone : start.isAlive run.source = false) :
    start.GoesOn run call (session.finishDropped run) := by
  refine of_finish (underWay.closeDropped run) called run.phase (.dropped gone) rfl
    fun _ => ?_
  obtain ⟨registry, metrics, log, _, find?, dropped⟩ := session.closeDropped_spec run
  rw [dropped]
  exact (find? run.id).trans (if_pos rfl)

end GoesOn

/-- The session after a call has asked for its run, which has yet to go on. -/
def asked (session : Session) (id : DocumentId) (call : Run) : Session :=
  let renewed := (session.beginCall.supersede id).setState id .pending
  { renewed with runs := renewed.runs ++ [call] }

theorem beginNow_of_found {awaited : Bool} {entry : Entry} {frames : List Frame}
    (found : session.registry.find? id = some entry) :
    session.beginNow awaited id frames =
      (session.asked id (.ofCall awaited id entry session.settings.workerConfig)).requestLock
        (.ofCall awaited id entry session.settings.workerConfig) frames := by
  unfold beginNow
  dsimp only
  rw [show session.beginCall.registry.find? id = some entry from found]
  rfl

/-- What becomes of a call with a move: it is still under way, or its run has
gone on and ended. -/
def Handled (session : Session) (call : Run) (after : Session) : Prop :=
  after.UnderWay call ∨
    ∃ run ∈ session.runs, run.key = call.key ∧
      ∃ result, session.Ends run result ∧ after.Ended call result

theorem handled_of_goesOn (member : run ∈ session.runs)
    (goesOn : session.GoesOn run call after) : Handled session call after :=
  goesOn.imp_right fun ⟨own, ends⟩ => ⟨run, member, own, ends⟩

namespace UnderWay

/-- A run with the key of a call is that of the call, up to its phase. -/
theorem called (underWay : session.UnderWay call) (phase : Phase)
    (member : { run with phase } ∈ session.runs) (own : run.key = call.key) :
    run = { call with phase := run.phase } :=
  congrArg (fun same : Run => { same with phase := run.phase })
    (underWay.same { run with phase } member own)

/-- A run takes the text that it was after, or finds it over its ceiling. -/
theorem takeSnapshot (underWay : session.UnderWay call) (phase : Phase)
    (member : { run with phase } ∈ session.runs)
    (overrun : ∀ {document}, session.sources[run.source]? = some document →
      document.text.exceeds run.config.maxChars = true → start.Ends run (.published none)) :
    start.GoesOn run call (session.takeSnapshot { run with phase }) := by
  have returned := underWay.modifySource run.source Source.endReading
  obtain ⟨text, read, taken⟩ := takeSnapshot_eq session { run with phase }
  rw [taken]
  split
  case isTrue above =>
      have ends : start.Ends run (.published none) := by
        rcases read with rfl | ⟨document, source, rfl⟩
        · exact absurd (Text.exceeds_iff.mp above) (Nat.not_lt_zero _)
        · exact overrun source above
      have settled := returned.settle { run with phase } .computing .idle
      have noted := (settled.count .oversized).note (.bypass run.id text.length) rfl
      exact .of_finish noted (underWay.called phase member) phase ends rfl nofun
  case isFalse => exact .inl (returned.enterPhase member _)

/-- A run whose edit is still the latest begins to read its document. -/
theorem readSource (underWay : session.UnderWay call) (member : run ∈ session.runs)
    (sources : session.sources = start.sources) (frames : List Frame) :
    start.GoesOn run call (session.readSource run frames) := by
  have called := underWay.called run.phase member
  unfold Session.readSource
  split
  case h_1 missing =>
      have gone : start.isAlive run.source = false := by
        rw [isAlive, ← sources, missing]
      exact (GoesOn.of_finishDropped underWay called gone).answering .nothing frames
  case h_2 document source =>
      let begun := (session.modifySource run.source fun _ =>
        document.beginSnapshot.2).enterPhase run .reading
      have reading : begun.UnderWay call :=
        (underWay.modifySource run.source _).enterPhase member .reading
      have joined : { run with phase := .reading } ∈ begun.runs :=
        List.mem_append_right _ (List.mem_singleton_self _)
      dsimp only
      split
      · refine (reading.takeSnapshot .reading joined fun {taken} found above => ?_).answering
          .nothing frames
        have same := found.symm.trans
          (modifySource_found (fun _ => document.beginSnapshot.2) source)
        cases same
        have long : document.text.exceeds run.config.maxChars = true := above
        exact .overrun (sources ▸ source) long
      · exact .inl (reading.answering .nothing _)

/-- A run that has the lock goes on. -/
theorem beginWork (underWay : session.UnderWay call) (member : run ∈ session.runs)
    (pending : run.phase.state = .pending) (frames : List Frame) :
    session.GoesOn run call (session.beginWork run frames) := by
  have called := underWay.called run.phase member
  unfold Session.beginWork
  cases advance : session.advanceState? run .pending .computing with
  | none =>
      exact (GoesOn.of_finishStale underWay called (.overtaken (pending ▸ advance))).answering
        .nothing frames
  | some advanced =>
      have advancing := underWay.advance advance
      obtain ⟨_, registry, _, _, _, _, rfl⟩ := advanceState?_spec advance
      dsimp only
      split
      case isTrue =>
          refine advancing.readSource member ?_ frames
          rfl
      case isFalse dead =>
          have gone : session.isAlive run.source = false := Bool.eq_false_iff.mpr dead
          exact (GoesOn.of_finishDropped advancing called gone).answering .nothing frames

theorem requestLock (underWay : session.UnderWay call) (member : run ∈ session.runs)
    (pending : run.phase.state = .pending) (frames : List Frame) :
    session.GoesOn run call (session.requestLock run frames) := by
  unfold Session.requestLock
  split
  · exact .inl ((underWay.enterPhase member .waiting).answering .nothing frames)
  · exact underWay.beginWork member pending frames

/-- A run that has computed publishes, unless it is too late. -/
theorem conclude (underWay : session.UnderWay call) (member : run ∈ session.runs)
    {text : Text} {highlights : Highlights} {lookup : Lookup}
    (computed : run.phase = .computed text highlights lookup) (nanoseconds : Nat) :
    session.GoesOn run call (session.conclude run text highlights lookup nanoseconds) := by
  have called := underWay.called run.phase member
  have counted := underWay.countLookup lookup nanoseconds
  unfold Session.conclude
  dsimp only
  split
  case isFalse dead =>
      rw [countLookup_isAlive] at dead
      exact .of_finishDropped counted called (Bool.eq_false_iff.mpr dead)
  case isTrue =>
      cases advance :
          (session.countLookup lookup nanoseconds).advanceState? run .computing .idle with
      | none =>
          have overtaken : session.advanceState? run run.phase.state .idle = none := by
            rw [advanceState?_eq_none_iff, computed, Phase.state,
              ← session.countLookup_registry lookup nanoseconds]
            exact advanceState?_eq_none_iff.mp advance
          exact .of_finishStale counted called (.overtaken overtaken)
      | some advanced =>
          have advancing := (counted.advance advance).count .published
          by_cases own : run.key = call.key
          · have delivered : ((advanced.count .published).note
                (.highlights run.id ⟨run.generation, text, highlights⟩)).deliveriesOf call.key =
                  [⟨run.generation, text, highlights⟩] := by
              rw [← own, deliveriesOf_note_own, own, advancing.silent, List.nil_append]
            obtain ⟨entry, _, found, current, _, edited, rfl⟩ := advanceState?_spec advance
            refine .inr ⟨own, _, .published computed,
              .of_finish advancing.distinct (called own) advancing.known
                (fun _ found => (advancing.spared found).1) delivered ?_ fun _ => ?_⟩
            · rintro ⟨⟩
            · have foundLater := edited.find?_some found
              rw [if_pos rfl] at foundLater
              rw [← show run.id = call.id from congrArg Prod.fst own,
                ← show run.generation = call.generation from congrArg Prod.snd own]
              exact ⟨_, foundLater, current, rfl⟩
          · exact .inl ((advancing.note _ (Event.deliveryBy?_other own)).finish own _)

theorem finishFailed (underWay : session.UnderWay call) (member : run ∈ session.runs)
    {reason : String} (failed : run.phase = .failed reason) :
    session.GoesOn run call (session.finishFailed run reason) := by
  have settled := underWay.settle run .computing .idle
  have noted := (settled.count .computeError).note
    (.error run.id (.computationFailed reason)) rfl
  exact .of_finish noted (underWay.called run.phase member) run.phase
    (.failed failed) rfl nofun

theorem poll (underWay : session.UnderWay call) (member : run ∈ session.runs)
    (nanoseconds : Nat) : session.GoesOn run call (session.poll run nanoseconds) := by
  unfold Session.poll
  split
  case h_1 due => exact underWay.requestLock member (by rw [due, Phase.state]) []
  case h_2 granted => exact underWay.beginWork member (by rw [granted, Phase.state]) []
  case h_3 computed => exact underWay.conclude member computed nanoseconds
  case h_4 failed => exact underWay.finishFailed member failed
  case h_5 => exact .inl underWay

/-- Another call for highlights leaves a call under way. -/
theorem beginNow (underWay : session.UnderWay call) (unused : session.Unused id)
    (awaited : Bool) (frames : List Frame) :
    (session.beginNow awaited id frames).UnderWay call := by
  have begun : session.beginCall.UnderWay call := underWay.congr rfl rfl rfl rfl
  have unusedBegun : session.beginCall.Unused id := unused
  cases found : session.registry.find? id with
  | none =>
      unfold Session.beginNow
      dsimp only
      rw [show session.beginCall.registry.find? id = none from found]
      exact (begun.reply _ _ _).answering _ _
  | some entry =>
      rw [beginNow_of_found found]
      let joined := Run.ofCall awaited id entry session.settings.workerConfig
      have asked : (session.asked id joined).UnderWay call :=
        (begun.renew id .pending).append joined
          (unusedBegun.renew begun.distinct found .pending) rfl rfl rfl rfl
      have member : joined ∈ (session.asked id joined).runs :=
        List.mem_append_right _ (List.mem_singleton_self _)
      refine (asked.requestLock member rfl frames).resolve_right ?_
      rintro ⟨own, _⟩
      obtain ⟨run, present, sameKey⟩ := underWay.present
      exact unused found run present (sameKey.trans own.symm)

/-! ## Moves -/

theorem perform (underWay : session.UnderWay call) (unused : ∀ id, session.Unused id)
    (action : Action) (frames : List Frame) :
    (session.perform action frames).UnderWay call := by
  by_cases available : (action.needsScheduler && !session.held) = false
  · cases performed : session.performAtOnce? action with
    | some result =>
        rw [perform_of_performAtOnce? available performed]
        exact (underWay.performAtOnce? performed).answering _ _
    | none =>
        unfold Session.perform
        rw [if_neg (by simp [available])]
        cases action with
        | edit id => exact underWay.beginEdit (unused id) frames
        | startNow id => exact underWay.beginNow (unused id) false frames
        | reconfigure settings => exact underWay.reconfigure unused settings _ frames
        | _ => cases performed
  · unfold Session.perform
    rw [if_pos (by simpa using available)]
    exact underWay.answering _ _

theorem resume (underWay : session.UnderWay call) (unused : ∀ id, session.Unused id)
    (answer : Answer) {frame : Frame} (frames : List Frame)
    (reading : ∀ run ∈ frame.debts.texts, run ∈ session.runs) :
    Handled session call (session.resume answer frame frames) := by
  cases frame with
  | host =>
      have answered : UnderWay { session with answer } call :=
        underWay.congr rfl rfl rfl rfl
      exact .inl (answered.answering answer frames)
  | call => exact .inl (underWay.endCall.answering answer frames)
  | acted action => exact .inl ((underWay.note _ rfl).answering answer frames)
  | actions rest =>
      cases rest with
      | nil => exact .inl (underWay.answering _ frames)
      | cons action rest => exact .inl (underWay.congr rfl rfl rfl rfl)
  | measured id source => exact .inl (underWay.finishEdit (unused id) source frames)
  | snapshot run =>
      have member := reading run List.mem_cons_self
      exact handled_of_goesOn member
        ((underWay.takeSnapshot run.phase member .overrun).answering .nothing frames)
  | rearm id rest outcomes =>
      unfold Session.resume
      dsimp only
      split
      · exact .inl (underWay.rearmNext unused rest _ frames)
      · exact .inl (underWay.rearmNext unused rest _ frames)

theorem proceed (underWay : session.UnderWay call)
    (coherent : Coherent session.debts session) :
    Handled session call session.proceed := by
  have unused := unused_of_coherent coherent
  unfold Session.proceed
  split
  case h_1 => exact .inl underWay
  case h_2 action frames _ => exact .inl (underWay.perform unused action frames)
  case h_3 => exact .inl (underWay.congr rfl rfl rfl rfl)
  case h_4 answer frame frames waiting =>
      refine underWay.resume unused answer frames fun run owed => (coherent.texts run ?_).1
      rw [debts_of_answer waiting]
      exact List.mem_append_left _ owed

/-- Every move leaves a call under way or lets its run end. -/
theorem move (underWay : session.UnderWay call) (coherent : Coherent session.debts session)
    {move : Move} (moved : session.move? move = some after) :
    Handled session call after := by
  cases move?_makes moved with
  | create | act | tick => exact .inl (underWay.congr rfl rfl rfl rfl)
  | highlightNow _ id =>
      unfold highlightNow
      split
      · exact .inl (underWay.beginNow (unused_of_coherent coherent id) true [])
      · exact .inl (underWay.congr rfl rfl rfl rfl)
  | proceed => exact underWay.proceed coherent
  | @tell notice =>
      have told : UnderWay { session with notices := session.notices.erase notice } call :=
        underWay.congr rfl rfl rfl rfl
      exact .inl (told.note _ rfl)
  | wake found => exact .inl (underWay.enterPhase (findRun?_mem found) .due)
  | poll _ found =>
      have member := findRun?_mem found
      exact handled_of_goesOn member (underWay.poll member _)
  | @complete _ _ _ text found => exact .inl (underWay.complete (findRun?_mem found) text)
  | fail found _ reason => exact .inl (underWay.breakOff (findRun?_mem found) reason)

end UnderWay

end Session

end LogTint
