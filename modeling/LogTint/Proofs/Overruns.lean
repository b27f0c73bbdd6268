import LogTint.Proofs.Asking
import LogTint.Proofs.Releasing

/-!
# Runs that find their text too long

A run is found over its ceiling when it has taken its text, and in no other way.  A move
that counts a run as too long, or tells the host of one, is therefore the turn of a run
whose text is over its ceiling.
-/

namespace LogTint

/-- The document that an event says is over its ceiling, and its length. -/
def Event.overrun? : Event → Option (DocumentId × Nat)
  | .bypass id chars => some (id, chars)
  | _ => none

namespace Session

variable {session final advanced : Session} {run : Run} {id : DocumentId} {entry : Entry}

/-- How many runs were over their ceiling, and which the host was told of. -/
def overrunTally (session : Session) : UInt64 × List (DocumentId × Nat) :=
  (session.metrics.oversized, session.log.filterMap (·.2.overrun?))

/-! ## What leaves them alone -/

theorem note_overrunTally (session : Session) {event : Event} (other : event.overrun? = none) :
    (session.note event).overrunTally = session.overrunTally := by
  simp [overrunTally, note, other]

theorem cancelArmed_overrunTally (session : Session) (id : DocumentId) :
    (session.cancelArmed id).2.overrunTally = session.overrunTally := by
  obtain ⟨registry, _, cancelled⟩ := session.cancelArmed_edited id
  rw [cancelled]
  rfl

theorem close_overrunTally (session : Session) :
    session.close.overrunTally = session.overrunTally := by
  have cancelled (ids : List DocumentId) : ∀ session : Session,
      (ids.foldl (fun session id => (session.cancelArmed id).2) session).overrunTally =
        session.overrunTally := by
    induction ids with
    | nil => exact fun _ => rfl
    | cons id ids induction =>
        intro session
        rw [List.foldl_cons, induction, cancelArmed_overrunTally]
  exact cancelled session.registry.ids session

theorem endCall_overrunTally (session : Session) :
    session.endCall.overrunTally = session.overrunTally := by
  unfold endCall
  dsimp only
  split
  · exact close_overrunTally _
  · rfl

theorem reply_overrunTally (session : Session) (origin : Origin) (id : DocumentId)
    (result : Answer) : (session.reply origin id result).overrunTally = session.overrunTally := by
  unfold reply
  split
  · rfl
  · exact endCall_overrunTally _
  · exact (endCall_overrunTally _).trans (note_overrunTally session rfl)

theorem finish_overrunTally (session : Session) (run : Run) (result : Answer) :
    (session.finish run result).overrunTally = session.overrunTally := by
  rw [finish, reply_overrunTally, removeRun_eq]
  rfl

theorem advanceState?_overrunTally {before after : DocumentState}
    (advance : session.advanceState? run before after = some advanced) :
    advanced.overrunTally = session.overrunTally ∧ advanced.sources = session.sources := by
  obtain ⟨_, registry, _, _, _, _, rfl⟩ := advanceState?_spec advance
  exact ⟨rfl, rfl⟩

theorem supersede_overrunTally (session : Session) (id : DocumentId) :
    (session.supersede id).overrunTally = session.overrunTally := by
  unfold supersede
  dsimp only
  split
  · exact cancelArmed_overrunTally _ id
  · exact cancelArmed_overrunTally _ id

theorem asked_overrunTally (session : Session) (id : DocumentId) (call : Run) :
    (session.asked id call).overrunTally = session.overrunTally :=
  supersede_overrunTally session.beginCall id

theorem passLock_overrunTally (session : Session) (id : DocumentId) :
    (session.passLock id).overrunTally = session.overrunTally := by
  rw [passLock_eq]
  rfl

theorem complete_overrunTally (session : Session) (run : Run) (text : Text) :
    (session.complete run text).overrunTally = session.overrunTally := by
  obtain ⟨cache, looked⟩ := highlightText_eq session text run.config.highlight
  have parted : (session.complete run text).overrunTally =
      (((session.highlightText text run.config.highlight).2.withoutRun run).passLock
        run.id).overrunTally := rfl
  rw [parted, passLock_overrunTally, looked]
  rfl

theorem breakOff_overrunTally (session : Session) (run : Run) (reason : String) :
    (session.breakOff run reason).overrunTally = session.overrunTally :=
  passLock_overrunTally _ _

theorem finishStale_overrunTally (session : Session) (run : Run) :
    (session.finishStale run).overrunTally = session.overrunTally :=
  finish_overrunTally _ run _

theorem finishDropped_overrunTally (session : Session) (run : Run) :
    (session.finishDropped run).overrunTally = session.overrunTally := by
  refine (finish_overrunTally _ run _).trans ?_
  unfold closeDropped
  dsimp only
  split
  · exact note_overrunTally _ rfl
  · rfl

theorem finishFailed_overrunTally (session : Session) (run : Run) (reason : String) :
    (session.finishFailed run reason).overrunTally = session.overrunTally := by
  refine (finish_overrunTally _ run _).trans ((note_overrunTally _ rfl).trans ?_)
  cases advance : session.advanceState? run .computing .idle with
  | none => rfl
  | some advanced => exact (advanceState?_overrunTally advance).1

theorem conclude_overrunTally (session : Session) (run : Run) (text : Text)
    (highlights : Highlights) (lookup : Lookup) (nanoseconds : Nat) :
    (session.conclude run text highlights lookup nanoseconds).overrunTally =
      session.overrunTally := by
  have counted : (session.countLookup lookup nanoseconds).overrunTally =
      session.overrunTally := by
    cases lookup <;> rfl
  unfold conclude
  dsimp only
  split
  · split
    case h_1 => exact (finishStale_overrunTally _ run).trans counted
    case h_2 advanced advance =>
        refine (finish_overrunTally _ run _).trans ((note_overrunTally _ rfl).trans ?_)
        exact (advanceState?_overrunTally advance).1.trans counted
  · exact (finishDropped_overrunTally _ run).trans counted

theorem release_overrunTally (session : Session) (id : DocumentId) :
    (session.release id).overrunTally = session.overrunTally := by
  unfold release
  split
  · exact cancelArmed_overrunTally session id
  · rfl

theorem releaseAndTell_overrunTally (session : Session) (id : DocumentId) :
    (session.releaseAndTell id).overrunTally = session.overrunTally :=
  (note_overrunTally _ rfl).trans (release_overrunTally session id)

theorem releaseAll_overrunTally (ids : List DocumentId) : ∀ session : Session,
    (ids.foldl releaseAndTell session).overrunTally = session.overrunTally := by
  induction ids with
  | nil => exact fun _ => rfl
  | cons id ids induction =>
      intro session
      rw [List.foldl_cons, induction, releaseAndTell_overrunTally]

/-! ### Edits -/

theorem applyEdit_overrunTally (session : Session) (id : DocumentId) (chars : Nat) :
    (session.applyEdit id chars).2.overrunTally = session.overrunTally := by
  unfold applyEdit
  split
  case h_1 => rfl
  case h_2 =>
      dsimp only
      split
      · exact supersede_overrunTally session id
      · exact supersede_overrunTally session id

theorem finishEdit_overrunTally (session : Session) (id : DocumentId) (source : SourceId)
    (frames : List Frame) :
    (session.finishEdit id source frames).overrunTally = session.overrunTally :=
  applyEdit_overrunTally _ id _

theorem beginEdit_overrunTally (session : Session) (id : DocumentId) (frames : List Frame) :
    (session.beginEdit id frames).overrunTally = session.overrunTally := by
  unfold beginEdit
  dsimp only
  split
  case h_1 => rfl
  case h_2 =>
      split
      case h_1 => exact release_overrunTally (session.beginCall.count .edit) id
      case h_2 =>
          split
          · exact finishEdit_overrunTally _ id _ _
          · rfl

theorem rearmNext_overrunTally (session : Session) (rest : List DocumentId)
    (outcomes : List (DocumentId × EditOutcome)) (frames : List Frame) :
    (session.rearmNext rest outcomes frames).overrunTally = session.overrunTally := by
  cases rest with
  | nil => rfl
  | cons id later => exact beginEdit_overrunTally session id _

theorem reconfigure_overrunTally (session : Session) (settings : Settings)
    (ids : List DocumentId) (frames : List Frame) :
    (session.reconfigure settings ids frames).overrunTally = session.overrunTally := by
  unfold reconfigure
  dsimp only
  split
  · rfl
  · exact rearmNext_overrunTally _ ids [] _

/-! ### Actions -/

theorem beginNow_overrunTally_of_untracked (untracked : session.registry.find? id = none)
    (awaited : Bool) (frames : List Frame) :
    (session.beginNow awaited id frames).overrunTally = session.overrunTally := by
  unfold beginNow
  dsimp only
  rw [show session.beginCall.registry.find? id = none from untracked]
  exact reply_overrunTally session.beginCall _ id _

theorem performAtOnce?_overrunTally {action : Action} {result : Answer × Session}
    (performed : session.performAtOnce? action = some result) :
    result.2.overrunTally = session.overrunTally := by
  cases action with
  | replace source text | append source text =>
      cases performed
      unfold rewriteSource
      split <;> rfl
  | release source =>
      cases performed
      unfold releaseSource
      split <;> rfl
  | register source =>
      cases performed
      unfold register
      split <;> rfl
  | unregister id =>
      cases performed
      unfold unregister
      split
      · exact releaseAndTell_overrunTally session id
      · rfl
  | sweep =>
      cases performed
      exact releaseAll_overrunTally session.droppedIds session
  | shutdown =>
      rw [performAtOnce?, shutdown_eq] at performed
      cases performed
      exact releaseAll_overrunTally session.registry.ids session
  | info | contains | settings | describe | clearCache =>
      cases performed
      rfl
  | dropScheduler =>
      cases performed
      dsimp only
      split
      · unfold giveUp
        dsimp only
        split
        · exact close_overrunTally _
        · rfl
      · rfl
  | edit | startNow | reconfigure => cases performed

/-- An action leaves them alone unless it asks for a run. -/
theorem perform_overrunTally {action : Action}
    (untracked : ∀ id, action = .startNow id → session.held = true →
      session.registry.find? id = none) (frames : List Frame) :
    (session.perform action frames).overrunTally = session.overrunTally := by
  unfold perform
  split
  case isTrue => rfl
  case isFalse available =>
      split
      case h_1 id => exact beginEdit_overrunTally session id frames
      case h_2 id =>
          have held : session.held = true := by simpa [Action.needsScheduler] using available
          exact beginNow_overrunTally_of_untracked (untracked id rfl held) false frames
      case h_3 settings =>
          exact reconfigure_overrunTally session settings session.registry.ids frames
      case h_4 =>
          split
          case h_1 answer after performed => exact performAtOnce?_overrunTally performed
          case h_2 => rfl

/-! ## Runs that take a text that is short enough -/

/-- Whether the text that a run is after is within the ceiling of the run. -/
def Within (session : Session) (run : Run) : Prop :=
  ∀ text, session.textOf? run.source = some text → text.length ≤ run.config.maxChars

theorem takeSnapshot_overrunTally (session : Session) (run : Run)
    (within : session.Within run) :
    (session.takeSnapshot run).overrunTally = session.overrunTally := by
  obtain ⟨text, read, taken⟩ := takeSnapshot_eq session run
  have short : ¬text.exceeds run.config.maxChars = true := by
    rw [Text.exceeds_iff, Nat.not_lt]
    rcases read with rfl | ⟨document, source, rfl⟩
    · exact Nat.zero_le _
    · exact within document.text (by rw [textOf?, source, Option.map_some])
  rw [taken, if_neg short]
  rfl

theorem readSource_overrunTally (within : session.Within run) (frames : List Frame) :
    (session.readSource run frames).overrunTally = session.overrunTally := by
  unfold readSource
  split
  case h_1 => exact finishDropped_overrunTally session run
  case h_2 document source =>
      dsimp only
      split
      case isFalse => rfl
      case isTrue =>
          let reading := (session.modifySource run.source
            fun _ => document.beginSnapshot.2).enterPhase run .reading
          have same : reading.textOf? run.source = session.textOf? run.source := by
            have asked : reading.sources[run.source]? = some document.beginSnapshot.2 :=
              modifySource_found (fun _ => document.beginSnapshot.2) source
            rw [textOf?, textOf?, source, asked]
            rfl
          have within : reading.Within { run with phase := .reading } :=
            fun text taken => within text (same ▸ taken)
          exact takeSnapshot_overrunTally reading _ within

theorem beginWork_overrunTally (within : session.Within run) (frames : List Frame) :
    (session.beginWork run frames).overrunTally = session.overrunTally := by
  unfold beginWork
  split
  case h_1 => exact finishStale_overrunTally session run
  case h_2 advanced advance =>
      obtain ⟨same, sources⟩ := advanceState?_overrunTally advance
      split
      · refine (readSource_overrunTally (fun text taken => within text ?_) frames).trans same
        rwa [textOf?, ← sources]
      · exact (finishDropped_overrunTally advanced run).trans same

theorem requestLock_overrunTally (within : session.Within run) (frames : List Frame) :
    (session.requestLock run frames).overrunTally = session.overrunTally := by
  unfold requestLock
  split
  · rfl
  · exact beginWork_overrunTally within frames

theorem poll_overrunTally (within : session.Within run) (nanoseconds : Nat) :
    (session.poll run nanoseconds).overrunTally = session.overrunTally := by
  unfold poll
  split
  · exact requestLock_overrunTally within []
  · exact beginWork_overrunTally within []
  · exact conclude_overrunTally session run _ _ _ _
  · exact finishFailed_overrunTally session run _
  · rfl

theorem beginNow_overrunTally {awaited : Bool} (distinct : Run.Distinct session.runs)
    (found : session.registry.find? id = some entry)
    (within : session.Within (.ofCall awaited id entry session.settings.workerConfig))
    (frames : List Frame) :
    (session.beginNow awaited id frames).overrunTally = session.overrunTally := by
  rw [beginNow_of_found found]
  refine (requestLock_overrunTally (fun text taken => within text ?_) frames).trans
    (asked_overrunTally session id _)
  obtain ⟨_, _, _, _, _, asked⟩ := session.asked_spec awaited distinct
  rwa [textOf?, asked] at taken

/-- A run that may take its text in a move: it is the turn of the run, or the move is the
call that asks for it. -/
inductive MayRead (session : Session) : Run → Move → Prop where
  | turn {run : Run} {move : Move} (member : run ∈ session.runs)
      (turn : session.turn? move = some run.key) : MayRead session run move
  | called {id : DocumentId} {entry : Entry} {awaited : Bool} {call : Move}
      (calls : session.Calls id awaited call)
      (found : session.registry.find? id = some entry) :
      MayRead session (.ofCall awaited id entry session.settings.workerConfig) call

theorem MayRead.overrunTally {move : Move} (acts : session.MayRead run move)
    (coherent : Coherent session.debts session)
    (moved : session.move? move = some final) (within : session.Within run) :
    final.overrunTally = session.overrunTally := by
  cases acts with
  | called calls found =>
      obtain ⟨frames, _, rfl⟩ := calls.begins moved
      exact beginNow_overrunTally coherent.distinct found within frames
  | turn member turn =>
      have own {id generation} {found : Run}
          (first : session.findRun? id generation = some found)
          (key : some (id, generation) = some run.key) : found = run :=
        coherent.distinct.eq (findRun?_mem first) member
          ((findRun?_key first).trans (Option.some.inj key))
      cases move?_makes moved with
      | create | act | highlightNow | tell | tick => cases turn
      | wake found => rfl
      | complete found => exact complete_overrunTally session _ _
      | fail found => exact breakOff_overrunTally session _ _
      | poll idle found =>
          cases own found turn
          exact poll_overrunTally within _
      | proceed =>
          unfold turn? at turn
          dsimp only at turn
          split at turn
          case h_2 => cases turn
          case h_1 answer reader frames waiting =>
              rw [debts_of_answer waiting] at coherent
              obtain ⟨present, reading, _⟩ := coherent.texts reader List.mem_cons_self
              have same : reader = run :=
                coherent.distinct.eq present member (Option.some.inj turn)
              subst same
              rw [proceed, waiting]
              exact takeSnapshot_overrunTally session reader within

/-- A frame that waits for an answer leaves them alone unless a run takes its text. -/
theorem resume_overrunTally {answer : Answer} {frame : Frame}
    (other : ∀ run, frame ≠ .snapshot run) (frames : List Frame) :
    (session.resume answer frame frames).overrunTally = session.overrunTally := by
  cases frame with
  | host => rfl
  | call => exact endCall_overrunTally session
  | acted action => exact note_overrunTally session rfl
  | actions rest => cases rest <;> rfl
  | measured id source => exact finishEdit_overrunTally session id source frames
  | snapshot run => exact absurd rfl (other run)
  | rearm id rest outcomes =>
      unfold resume
      dsimp only
      split
      · exact rearmNext_overrunTally session rest _ frames
      · exact rearmNext_overrunTally session rest _ frames

/-- Only a run whose text is over its ceiling is found too long, in the move in which it
takes the text. -/
theorem mayRead_of_overrun {move : Move} (coherent : Coherent session.debts session)
    (moved : session.move? move = some final)
    (changed : final.overrunTally ≠ session.overrunTally) :
    ∃ run, session.MayRead run move ∧ ¬session.Within run := by
  by_cases acting : ∃ run, session.MayRead run move
  · obtain ⟨run, acts⟩ := acting
    exact ⟨run, acts, fun within => changed (acts.overrunTally coherent moved within)⟩
  refine absurd ?_ changed
  have untracked {id awaited call} (calls : session.Calls id awaited call)
      (same : call = move) : session.registry.find? id = none := by
    cases found : session.registry.find? id with
    | none => rfl
    | some entry =>
        subst same
        exact absurd ⟨_, MayRead.called calls found⟩ acting
  have idle {id generation} {run : Run} (found : session.findRun? id generation = some run)
      (turn : session.turn? move = some (id, generation)) : False :=
    acting ⟨run, .turn (findRun?_mem found) (findRun?_key found ▸ turn)⟩
  cases move?_makes moved with
  | create | act | tick => rfl
  | tell => exact note_overrunTally _ rfl
  | wake found | poll _ found | complete found | fail found => exact (idle found rfl).elim
  | highlightNow waiting id =>
      unfold highlightNow
      split
      case isTrue held =>
          exact beginNow_overrunTally_of_untracked (untracked (.awaited held) rfl) true []
      case isFalse => rfl
  | proceed busy =>
      unfold proceed
      split
      case h_1 => rfl
      case h_2 action frames waiting =>
          refine perform_overrunTally (fun id same held => ?_) frames
          exact untracked (.begun held (same ▸ waiting)) rfl
      case h_3 => rfl
      case h_4 answer frame frames waiting =>
          refine resume_overrunTally (fun run same => acting ⟨run, ?_⟩) frames
          subst same
          rw [debts_of_answer waiting] at coherent
          exact .turn (coherent.texts run List.mem_cons_self).1 (by rw [turn?, waiting])

end Session

end LogTint
