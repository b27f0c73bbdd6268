import LogTint.Proofs.Ledger

/-!
# Every run is accounted for

A move changes the books by what it enters in the ledger, edits in progress
aside, and so does a history.  Counters, unfinished runs and deliveries
therefore add up wherever a history leads while the scheduler is there.
-/

namespace LogTint

namespace Session

variable {debts : Debts} {session middle after : Session} {run : Run} {id : DocumentId}
  {frames : List Frame}

/-! ## Moves -/

/-- A move that enters nothing leaves everything in balance. -/
theorem balance_of_blank {move : Move} (books : after.books = session.books)
    (same : measuring after.control.frames = measuring session.control.frames)
    (blank : session.entered move after = .blank) :
    after.balance = session.balance.enter (session.entered move after) := by
  rw [blank, Books.enter_blank, balance, balance, books, same]

theorem beginWork_measuring (session : Session) (run : Run) (frames : List Frame) :
    measuring (session.beginWork run frames).control.frames = measuring frames := by
  unfold beginWork readSource
  split
  · rfl
  · split
    · split
      · rfl
      · dsimp only
        split
        · rfl
        · simp [answering, Control.frames, Frame.isMeasured]
    · rfl

theorem requestLock_measuring (session : Session) (run : Run) (frames : List Frame) :
    measuring (session.requestLock run frames).control.frames = measuring frames := by
  unfold requestLock
  split
  · rfl
  · exact beginWork_measuring session run frames

theorem beginNow_measuring (session : Session) (awaited : Bool) (id : DocumentId)
    (frames : List Frame) :
    measuring (session.beginNow awaited id frames).control.frames = measuring frames := by
  unfold beginNow
  dsimp only
  split
  · rfl
  · exact requestLock_measuring _ _ frames

/-- What goes on edits nothing and calls for nothing, but may release documents. -/
theorem balance_of_released
    (books : after.books =
      session.books.post (-.ofNat (session.releasing.countP session.hasTimer)) 0)
    (same : measuring after.control.frames = measuring session.control.frames)
    (editing : session.isEditing = false) (quiet : session.asksNow .proceed = false) :
    after.balance = session.balance.enter (session.entered .proceed after) := by
  have entered : session.entered .proceed after =
      { Ledger.blank with cancelled := session.releasing.countP session.hasTimer } := by
    simp [Session.entered, editing, quiet, Ledger.blank]
  rw [entered, balance, balance, books, same]
  simp only [Books.enter, Ledger.blank, Books.post_post]
  congr 1 <;> grind

/-- An action other than an edit or a change of settings edits nothing. -/
theorem nextEdit?_of_perform {action : Action}
    (waiting : session.control = .perform action frames)
    (other : session.held = false ∨
      (∀ id, action ≠ .edit id) ∧ ∀ settings, action ≠ .reconfigure settings) :
    session.nextEdit? = none ∧ session.isEditing = false := by
  have none : session.nextEdit? = none := by
    unfold nextEdit?
    split
    case h_1 id _ same =>
        rw [waiting] at same
        cases same
        rcases other with gone | ⟨noEdit, _⟩
        · simp [gone]
        · exact absurd rfl (noEdit id)
    case h_2 settings _ same =>
        rw [waiting] at same
        cases same
        rcases other with gone | ⟨_, noChange⟩
        · simp only [gone]
          split <;> rfl
        · exact absurd rfl (noChange settings)
    case h_3 same =>
        rw [waiting] at same
        cases same
    case h_4 => rfl
  refine ⟨none, ?_⟩
  simp [isEditing, waiting, beginning?, none]

theorem rearmNext_balance (coherent : Coherent debts middle)
    (present : middle.dropped = false) (rest : List DocumentId)
    (outcomes : List (DocumentId × EditOutcome)) (frames : List Frame) :
    (middle.rearmNext rest outcomes frames).balance =
      (middle.books.post 0 (-measuring frames)).enter (match rest with
        | [] => .blank
        | id :: _ => middle.begunLedger id (middle.rearmNext rest outcomes frames)) := by
  cases rest with
  | nil => exact (Books.enter_blank _).symm
  | cons id later =>
      have begun := beginEdit_begun coherent present id (.rearm id later outcomes :: frames)
      simpa [rearmNext, Frame.isMeasured] using begun.balance

/-- A call to highlight at once orders one run if the document is found. -/
theorem beginNow_balance {move : Move} {awaited : Bool}
    (coherent : Coherent debts session)
    (presentAfter : (session.beginNow awaited id frames).dropped = false)
    (same : measuring frames = measuring session.control.frames)
    (entered : session.entered move (session.beginNow awaited id frames) =
      { Ledger.blank with called := if session.registry.contains id then 1 else 0 }) :
    (session.beginNow awaited id frames).balance =
      session.balance.enter
        (session.entered move (session.beginNow awaited id frames)) := by
  rw [entered, balance, balance, beginNow_books coherent awaited id frames presentAfter,
    beginNow_measuring, same]
  simp only [Books.enter, Ledger.blank, Books.post_post]
  congr 1
  · split <;> grind
  · grind

theorem performAtOnce?_balance {action : Action} {result : Answer × Session}
    (coherent : Coherent debts session)
    (waiting : session.control = .perform action frames)
    (present : session.dropped = false)
    (held : action.needsScheduler → session.held = true)
    (performed : session.performAtOnce? action = some result)
    (presentAfter : result.2.dropped = false) :
    (result.2.answering result.1 frames).balance =
      session.balance.enter
        (session.entered .proceed (result.2.answering result.1 frames)) := by
  have other : (∀ id, action ≠ .edit id) ∧
      ∀ settings, action ≠ .reconfigure settings := by
    constructor
    · rintro id rfl
      cases performed
    · rintro settings rfl
      cases performed
  obtain ⟨none, editing⟩ := nextEdit?_of_perform waiting (.inr other)
  have releasing : session.releasing = session.releases action := by
    rw [Session.releasing, waiting, beginning?, none, Option.filter_none,
      Option.toList_none, List.filter_nil, List.append_nil]
    by_cases needs : action.needsScheduler = true
    · exact if_pos (held needs)
    · cases action <;> simp_all [Action.needsScheduler, releases]
  refine balance_of_released ?_ (by rw [waiting]; rfl) editing ?_
  · rw [releasing]
    exact performAtOnce?_books coherent present performed presentAfter
  · cases action <;> simp_all [asksNow, performAtOnce?]

theorem reconfigure_balance {settings : Settings}
    (coherent : Coherent session.debts session)
    (waiting : session.control = .perform (.reconfigure settings) frames)
    (present : session.dropped = false) (held : session.held = true) :
    (session.reconfigure settings session.registry.ids frames).balance =
      session.balance.enter (session.entered .proceed
        (session.reconfigure settings session.registry.ids frames)) := by
  have started : session.balance = session.books.post 0 (-measuring frames) := by
    rw [balance, waiting]
    rfl
  cases valid : settings.validate with
  | error error =>
      have none : session.nextEdit? = none := by simp [nextEdit?, waiting, valid]
      have answered : session.reconfigure settings session.registry.ids frames =
          session.beginCall.answering (.failure error) (.call :: frames) := by
        unfold reconfigure
        rw [valid]
      rw [answered]
      refine balance_of_blank rfl ?_ ?_
      · simp [answering, waiting, Control.frames, Frame.isMeasured]
      · simp [entered, isEditing, asksNow, releasing, releases, beginning?, none, waiting,
          Ledger.blank]
  | ok =>
      have called := (coherent.ofEffects (beginCall_inner _ session).effects).ofEffect
        (.reconfigure settings)
      have rearmed := rearmNext_balance called present session.registry.ids []
        (.call :: frames)
      rw [reconfigure_valid valid, rearmed, started]
      have left : measuring (.call :: frames) = measuring frames := by
        simp [Frame.isMeasured]
      rw [left]
      cases ids : session.registry.ids with
      | nil =>
          have none : session.nextEdit? = none := by
            simp [nextEdit?, waiting, valid, held, ids]
          have entered : ∀ after, session.entered .proceed after = .blank := by
            simp [entered, isEditing, asksNow, releasing, releases, beginning?, none,
              waiting, Ledger.blank]
          rw [entered]
          rfl
      | cons id later =>
          have next : session.nextEdit? = some id := by
            simp [nextEdit?, waiting, valid, held, ids]
          rw [entered_of_nextEdit? next]
          rfl

theorem perform_balance {action : Action} (coherent : Coherent session.debts session)
    (waiting : session.control = .perform action frames)
    (present : session.dropped = false)
    (presentAfter : (session.perform action frames).dropped = false) :
    (session.perform action frames).balance =
      session.balance.enter (session.entered .proceed (session.perform action frames)) := by
  have started : session.balance = session.books.post 0 (-measuring frames) := by
    rw [balance, waiting]
    rfl
  have same : measuring frames = measuring session.control.frames := by
    rw [waiting]
    rfl
  cases available : action.needsScheduler && !session.held with
  | true =>
      have gone : session.held = false := by
        simpa using (Bool.and_eq_true_iff.mp available).2
      obtain ⟨none, editing⟩ := nextEdit?_of_perform waiting (.inl gone)
      unfold perform
      rw [if_pos available]
      refine balance_of_blank rfl same ?_
      cases action <;>
        simp [entered, editing, asksNow, releasing, beginning?, none, waiting, gone,
          Ledger.blank]
  | false =>
      have held : action.needsScheduler → session.held = true := by
        simpa using available
      cases performed : session.performAtOnce? action with
      | some result =>
          rw [perform_of_performAtOnce? available performed] at presentAfter ⊢
          exact performAtOnce?_balance coherent waiting present held performed presentAfter
      | none =>
          unfold perform at presentAfter ⊢
          rw [if_neg (by simp [available])] at presentAfter ⊢
          cases action with
          | edit id =>
              have next : session.nextEdit? = some id := by
                simp [nextEdit?, waiting, held rfl]
              rw [entered_of_nextEdit? next, started]
              exact (beginEdit_begun coherent present id frames).balance
          | startNow id =>
              obtain ⟨none, editing⟩ := nextEdit?_of_perform waiting (.inr (by simp))
              refine beginNow_balance coherent presentAfter same ?_
              simp [entered, editing, asksNow, releasing, releases, beginning?, none,
                waiting, held rfl, Ledger.blank]
          | reconfigure settings =>
              exact reconfigure_balance coherent waiting present (held rfl)
          | replace | append | release | register | unregister | sweep | shutdown | info
          | contains | settings | clearCache | describe | dropScheduler => cases performed

theorem resume_balance {answer : Answer} {frame : Frame}
    (coherent : Coherent session.debts session)
    (waiting : session.control = .answer answer (frame :: frames))
    (present : session.dropped = false)
    (presentAfter : (session.resume answer frame frames).dropped = false) :
    (session.resume answer frame frames).balance =
      session.balance.enter
        (session.entered .proceed (session.resume answer frame frames)) := by
  have sameDebts := debts_of_answer waiting
  rw [sameDebts] at coherent
  have started : session.balance = session.books.post 0 (-measuring (frame :: frames)) := by
    rw [balance, waiting]
    rfl
  have blank (after : Session) (noLength : ∀ id source, frame ≠ .measured id source)
      (noRearm : ∀ id rest outcomes, frame ≠ .rearm id rest outcomes) :
      session.entered .proceed after = .blank := by
    cases frame <;>
      simp_all [entered, isEditing, asksNow, releasing, beginning?, nextEdit?, Ledger.blank]
  have popped (plain : frame.isMeasured = false) :
      measuring frames = measuring session.control.frames := by
    simp [waiting, Control.frames, plain]
  cases frame with
  | host => exact balance_of_blank rfl (popped rfl) (blank _ (by simp) (by simp))
  | call =>
      exact balance_of_blank (endCall_books session presentAfter) (popped rfl)
        (blank _ (by simp) (by simp))
  | acted action =>
      exact balance_of_blank (books_note session (.acted action answer)) (popped rfl)
        (blank _ (by simp) (by simp))
  | actions rest =>
      refine balance_of_blank ?_ ?_ (blank _ (by simp) (by simp))
      · cases rest <;> rfl
      · rw [← popped rfl]
        cases rest <;> simp [resume, answering, Control.frames, Frame.isMeasured]
  | measured id source =>
      obtain ⟨result, answered, judged⟩ :=
        finishEdit_judged session coherent.distinct id source frames
      have entered : session.entered .proceed (session.finishEdit id source frames) =
          .judge (session.finishEdit id source frames).verdict? := by
        rw [← Ledger.judge_eq]
        simp [entered, isEditing, asksNow, releasing, beginning?, nextEdit?, waiting]
      change (session.finishEdit id source frames).balance =
        session.balance.enter (session.entered .proceed (session.finishEdit id source frames))
      have left : -measuring (.measured id source :: frames) = -measuring frames - 1 := by
        simp only [measuring_cons, Frame.isMeasured]
        grind
      rw [entered, judged.balance answered, started, left]
  | snapshot run =>
      have member := (coherent.texts run List.mem_cons_self).1
      exact balance_of_blank
        (takeSnapshot_books session coherent.distinct member presentAfter) (popped rfl)
        (blank _ (by simp) (by simp))
  | rearm id rest outcomes =>
      obtain ⟨later, resumed⟩ : ∃ later,
          session.resume answer (.rearm id rest outcomes) frames =
            session.rearmNext rest later frames := by
        unfold resume
        dsimp only
        split
        · exact ⟨_, rfl⟩
        · exact ⟨_, rfl⟩
      rw [resumed, rearmNext_balance coherent present, balance, ← popped rfl]
      cases rest with
      | nil =>
          have entered (after : Session) : session.entered .proceed after = .blank := by
            simp [entered, isEditing, asksNow, releasing, beginning?, nextEdit?, waiting,
              Ledger.blank]
          rw [entered]
      | cons next rest =>
          have begins : session.nextEdit? = some next := by simp [nextEdit?, waiting]
          rw [entered_of_nextEdit? begins]

theorem poll_measuring (idle : session.control = .idle) (run : Run) (nanoseconds : Nat) :
    measuring (session.poll run nanoseconds).control.frames = measuring session.control.frames := by
  unfold poll
  split
  · rw [requestLock_measuring, idle]
    rfl
  · rw [beginWork_measuring, idle]
    rfl
  · rw [conclude_control]
  · rw [finishFailed_control]
  · rfl

theorem highlightNow_balance (coherent : Coherent session.debts session)
    (idle : session.control = .idle) (id : DocumentId)
    (presentAfter : (session.highlightNow id).dropped = false) :
    (session.highlightNow id).balance =
      session.balance.enter
        (session.entered (.highlightNow id) (session.highlightNow id)) := by
  unfold highlightNow at presentAfter ⊢
  split
  case isTrue held =>
      rw [if_pos held] at presentAfter
      refine beginNow_balance coherent presentAfter ?_ ?_
      · rw [idle]
        rfl
      · simp [entered, asksNow, held]
  case isFalse gone => exact balance_of_blank rfl rfl (by simp [entered, asksNow, gone]; rfl)

/-- A move changes the books by what it enters in the ledger. -/
theorem balance_of_move {move : Move} (coherent : Coherent session.debts session)
    (moved : session.move? move = some after) (presentAfter : after.dropped = false) :
    after.balance = session.balance.enter (session.entered move after) := by
  have present := present_of_move coherent moved presentAfter
  cases move?_makes moved with
  | proceed busy =>
      unfold proceed at presentAfter ⊢
      match waiting : session.control with
      | .idle => exact absurd waiting busy
      | .perform action frames =>
          rw [waiting] at presentAfter
          exact perform_balance coherent waiting present presentAfter
      | .answer answer [] =>
          refine balance_of_blank rfl ?_ ?_
          · rw [waiting]
            rfl
          · simp [entered, isEditing, asksNow, releasing, beginning?, nextEdit?, waiting,
              Ledger.blank]
      | .answer answer (frame :: frames) =>
          rw [waiting] at presentAfter
          exact resume_balance coherent waiting present presentAfter
  | create => exact balance_of_blank rfl rfl rfl
  | act idle =>
      refine balance_of_blank rfl ?_ rfl
      rw [isIdle_iff.mp idle]
      rfl
  | highlightNow idle id =>
      exact highlightNow_balance coherent (isIdle_iff.mp idle) id presentAfter
  | tell member => exact balance_of_blank (tell_books session member) rfl rfl
  | wake found =>
      exact balance_of_blank
        (enterPhase_books session coherent.distinct (findRun?_mem found) .due) rfl rfl
  | @poll _ _ _ run idle found =>
      exact balance_of_blank (poll_books coherent (findRun?_mem found) _ presentAfter)
        (poll_measuring (isIdle_iff.mp idle) run _) rfl
  | @complete _ _ run text found =>
      refine balance_of_blank
        (complete_books session coherent.distinct (findRun?_mem found) text) ?_ rfl
      rw [complete_control]
  | fail found _ reason =>
      refine balance_of_blank
        (breakOff_books session coherent.distinct (findRun?_mem found) reason) ?_ rfl
      rw [breakOff_control]
  | tick => exact balance_of_blank rfl rfl rfl

/-- A history changes the books by what is in its ledger. -/
theorem balance_of_moves {moves : List Move} (coherent : Coherent session.debts session)
    (reached : session.moves? moves = some after) (presentAfter : after.dropped = false) :
    session.dropped = false ∧
      after.balance = session.balance.enter (session.ledger moves) := by
  induction moves generalizing session with
  | nil =>
      cases reached
      exact ⟨presentAfter, (Books.enter_blank _).symm⟩
  | cons move later induction =>
      obtain ⟨middle, moved, rest⟩ := moves?_cons_iff.mp reached
      have coherentMiddle := coherent.ofEffects (effects_of_move coherent moved)
      obtain ⟨presentMiddle, balanced⟩ := induction coherentMiddle rest
      refine ⟨present_of_move coherent moved presentMiddle, ?_⟩
      rw [balanced, balance_of_move coherent moved presentMiddle, Books.enter_enter]
      have ledger : session.ledger (move :: later) =
          session.entered move middle + middle.ledger later := by
        rw [Session.ledger, moved]
      rw [ledger]

theorem initial_balance (settings : Settings) (cache : Option Cache) :
    (initial settings cache).balance =
      ⟨0, -1, 0, 0, 0, 0, fun id => -if id.number < 1 then 1 else 0, 0, 0⟩ := by
  apply Books.ext <;>
    simp [balance, books, initial, Books.post, told, Registry.ids, Registry.empty,
      Metrics.zero, Metrics.ended, Control.frames]

/-- Where nothing is being carried out and the host has been told of everything,
every run, every edit and every document is accounted for. -/
theorem runs_accounted {settings : Settings} {cache : Option Cache} {moves : List Move}
    (reached : (initial settings cache).moves? moves = some session)
    (present : session.dropped = false) (idle : session.control = .idle)
    (informed : session.notices = []) :
    let ledger := (initial settings cache).ledger moves
    let metrics := session.metrics
    UInt64.ofNat (ledger.scheduled + ledger.called) =
        metrics.superseded + metrics.published + metrics.discarded + metrics.oversized +
          metrics.errors + .ofNat ledger.cancelled + .ofNat session.runs.length ∧
      metrics.edits =
        .ofNat ledger.scheduled + metrics.bypassed + .ofNat ledger.failed ∧
      metrics.active = .ofNat session.registry.size ∧
      UInt64.ofNat (told session.log Event.isHighlights) = metrics.published ∧
      UInt64.ofNat (told session.log Event.isBypass) = metrics.oversized ∧
      UInt64.ofNat (told session.log Event.isError) = metrics.errors ∧
      UInt64.ofNat (told session.log Event.isClosed) =
        metrics.registered - metrics.active ∧
      ∀ id : DocumentId, told session.log (· = .closed id) =
        if 0 < id.number ∧ id.number < session.nextId ∧
          session.registry.contains id = false then 1 else 0 := by
  obtain ⟨_, balanced⟩ := balance_of_moves (.initial settings cache) reached present
  have noEdits : session.balance = session.books := by
    rw [balance, idle]
    exact Books.post_zero _
  have size : session.registry.ids.length = session.registry.size := by
    simp [Registry.ids, Registry.size]
  rw [noEdits, initial_balance] at balanced
  intro ledger metrics
  refine ⟨?_, ?_, ?_, ?_, ?_, ?_, ?_, ?_⟩
  · have runs := congrArg Books.runs balanced
    simp only [books, Books.enter, Books.post, Metrics.ended] at runs
    grind [UInt64.ofNat_add]
  · have edits := congrArg Books.edits balanced
    simp only [books, Books.enter, Books.post] at edits
    grind
  · have active := congrArg Books.active balanced
    simp only [books, Books.enter, Books.post, size] at active
    grind
  · have published := congrArg Books.published balanced
    simp only [books, Books.enter, Books.post] at published
    grind
  · have oversized := congrArg Books.oversized balanced
    simp only [books, Books.enter, Books.post] at oversized
    grind
  · have errors := congrArg Books.errors balanced
    simp only [books, Books.enter, Books.post] at errors
    grind
  · have closings := congrArg Books.closings balanced
    simp only [books, Books.enter, Books.post, informed, List.length_nil,
      Nat.add_zero] at closings
    grind
  · intro id
    have closed := congrFun (congrArg Books.closed balanced) id
    simp only [books, Books.enter, Books.post, informed, List.countP_nil,
      Registry.mem_ids_iff, ← Registry.contains_iff] at closed
    split_ifs at closed ⊢ <;> grind

/-- A host registers a document, edits it, and takes it back before its timer
fires. -/
def withdrawnEdit : List Move :=
  firstEdit [] ++ .act (.unregister ⟨1⟩) :: List.replicate 3 .proceed

theorem runs_accounted_of_withdrawnEdit :
    ∃ session, (initial .standard none).moves? withdrawnEdit = some session ∧
      session.dropped = false ∧ session.control = .idle ∧ session.notices = [] ∧
      (initial .standard none).ledger withdrawnEdit = ⟨1, 0, 0, 1⟩ ∧
      session.metrics.edits = .ofNat 1 + session.metrics.bypassed + .ofNat 0 ∧
      told session.log (· = .closed ⟨1⟩) = 1 := by
  have reached : (initial .standard none).moves? withdrawnEdit = some _ := rfl
  obtain ⟨_, edits, _, _, _, _, _, closed⟩ := runs_accounted reached rfl rfl rfl
  exact ⟨_, reached, rfl, rfl, rfl, rfl, edits, closed ⟨1⟩⟩

end Session

end LogTint
