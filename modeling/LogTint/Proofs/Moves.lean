import LogTint.Proofs.Operating

/-!
# Moves as chains of effects

`Moved` lists what a move can amount to.  Most moves are chains of effects of
which none stands out; the others change the documents of the host, break a
computation off, deliver highlights, or tell the host of a document that is not
tracked any more.
-/

namespace LogTint

/-- How a host changes the text of a document. -/
inductive Buffer.Rewriting : (Buffer → Buffer) → Prop where
  | replace (text : Text) : Rewriting (·.replace text)
  | append (text : Text) : Rewriting (·.append text)

namespace Session

variable {debts : Debts} {session after : Session} {run : Run} {id : DocumentId}

/-! ## Actions that are carried out at once -/

theorem passLock_note (session : Session) (id : DocumentId) (event : Event) :
    (session.note event).passLock id = (session.passLock id).note event := by
  unfold passLock
  dsimp only [note]
  split <;> rfl

theorem removeRun_note (session : Session) (run : Run) (event : Event) :
    (session.note event).removeRun run = (session.removeRun run).note event := by
  unfold removeRun
  dsimp only
  split
  · exact passLock_note (session.withoutRun run) run.id event
  · rfl

theorem release_note (session : Session) (id : DocumentId) (event : Event) :
    (session.note event).release id = (session.release id).note event := by
  have cancelled : ((session.note event).cancelArmed id).2 =
      (session.cancelArmed id).2.note event := by
    unfold cancelArmed
    dsimp only [note]
    split
    · rfl
    · dsimp only [modifyEntry, findRun?]
      split
      · rfl
      · exact removeRun_note (session.modifyEntry id Entry.disarmed) _ event
  by_cases tracked : session.registry.contains id = true
  · unfold release
    rw [cancelled, if_pos tracked]
    exact if_pos tracked
  · unfold release
    rw [if_neg tracked]
    exact if_neg tracked

/-- The documents may as well be released and told of one by one. -/
theorem shutdown_eq (session : Session) :
    session.shutdown = (.done, session.registry.ids.foldl releaseAndTell session) := by
  have late : ∀ (ids : List DocumentId) (session : Session) (event : Event),
      (ids.foldl release session).note event =
        ids.foldl release (session.note event) := by
    intro ids
    induction ids with
    | nil => exact fun _ _ => rfl
    | cons id ids induction =>
        intro session event
        rw [List.foldl_cons, List.foldl_cons, induction, release_note]
  have oneByOne : ∀ (ids : List DocumentId) (session : Session),
      ids.foldl (fun session id => session.note (.closed id))
          (ids.foldl release session) =
        ids.foldl releaseAndTell session := by
    intro ids
    induction ids with
    | nil => exact fun _ => rfl
    | cons id ids induction =>
        intro session
        rw [List.foldl_cons, List.foldl_cons, List.foldl_cons, late, induction]
        rfl
  exact congrArg (Prod.mk Answer.done) (oneByOne session.registry.ids session)

theorem releaseAll_inner (ids : List DocumentId) (coherent : Coherent debts session)
    (distinct : ids.Nodup) (tracked : ∀ id ∈ ids, session.registry.contains id = true) :
    Inner (debts, session) (debts, ids.foldl releaseAndTell session) := by
  induction ids generalizing session with
  | nil => exact .refl
  | cons id ids induction =>
      obtain ⟨fresh, distinct⟩ := List.nodup_cons.mp distinct
      have here := tracked id List.mem_cons_self
      have effect : Effect .inner (debts, session) (debts, session.releaseAndTell id) :=
        .unregister here
      refine .head effect (induction (coherent.ofEffect effect) distinct ?_)
      intro other member
      obtain ⟨registry, runs, metrics, _, find?, _, released⟩ :=
        session.release_spec coherent.distinct here
      have different : other ≠ id := by
        rintro rfl
        exact fresh member
      have stays := tracked other (List.mem_cons_of_mem _ member)
      unfold releaseAndTell
      rw [released]
      rw [Registry.contains] at stays ⊢
      exact (congrArg Option.isSome ((find? other).trans (if_neg different))).trans stays

theorem performAtOnce?_inner {action : Action} {result : Answer × Session}
    (coherent : Coherent debts session)
    (held : action.needsScheduler → session.held = true)
    (replaces : ∀ source text, action ≠ .replace source text)
    (appends : ∀ source text, action ≠ .append source text)
    (performed : session.performAtOnce? action = some result) :
    Inner (debts, session) (debts, result.2) := by
  cases action with
  | replace source text => exact absurd rfl (replaces source text)
  | append source text => exact absurd rfl (appends source text)
  | release source =>
      cases performed
      unfold releaseSource
      split
      · exact .refl
      · exact modifySource_inner debts session fun _ _ => rfl
  | register source =>
      cases performed
      unfold register
      split
      · exact .refl
      · exact .single (.register source (held rfl))
  | unregister id =>
      cases performed
      unfold unregister
      split
      case isTrue tracked => exact .single (.unregister tracked)
      case isFalse => exact .refl
  | sweep =>
      cases performed
      refine releaseAll_inner _ coherent ?_ ?_
      · exact coherent.ids.sublist session.droppedIds_sublist
      · intro id member
        exact contains_of_mem_ids (session.droppedIds_sublist.subset member)
  | shutdown =>
      rw [performAtOnce?, shutdown_eq] at performed
      cases performed
      refine releaseAll_inner _ coherent coherent.ids fun id member => ?_
      exact Registry.contains_iff.mpr (Registry.mem_ids_iff.mp member)
  | info | contains | settings | describe =>
      cases performed
      exact .refl
  | clearCache =>
      cases performed
      exact .single .clearCache
  | dropScheduler =>
      cases performed
      dsimp only
      split
      · exact giveUp_inner debts session
      · exact .refl
  | edit | startNow | reconfigure => cases performed

/-! ## What a move amounts to -/

/-- Whether a run that is given the current text of its document finds it over
the ceiling. -/
def overruns (session : Session) (run : Run) : Bool :=
  session.sources[run.source]?.any fun document =>
    document.text.exceeds run.config.maxChars

/-- The document that a move tells the host of although it is not tracked any
more.  Runs that were overtaken end in silence as a rule, but one that finds a
text over its ceiling, or whose computation broke off, does not ask. -/
def unheeded? (session : Session) : Move → Option DocumentId
  | .proceed =>
      match session.control with
      | .answer _ (.snapshot run :: _) =>
          if session.overruns run ∧ session.registry.contains run.id = false then
            some run.id
          else none
      | _ => none
  | .poll id generation _ =>
      match session.findRun? id generation with
      | some run =>
          match run.phase with
          | .failed _ =>
              if session.registry.contains run.id = false then some run.id else none
          | _ => none
      | none => none
  | _ => none

/-- A chain of effects of which one may stand out.  Nothing is told to the host
before that one. -/
def Marked (kind : EffectKind) (before after : Session) : Prop :=
  ∃ start finish, Inner (before.debts, before) start ∧
    start.2.log = before.log ∧ Effect kind start finish ∧
    Inner finish (after.debts, after)

theorem Marked.first {kind : EffectKind} {finish : Debts × Session}
    (effect : Effect kind (session.debts, session) finish)
    (rest : Inner finish (after.debts, after)) : Marked kind session after :=
  ⟨_, finish, .refl, rfl, effect, rest⟩

theorem Marked.effects {kind : EffectKind} (marked : Marked kind session after) :
    Effects (session.debts, session) (after.debts, after) := by
  obtain ⟨_, _, earlier, _, effect, later⟩ := marked
  exact earlier.effects.trans (effect.any.trans later.effects)

/-- The host creates a document or changes the text of one. -/
inductive Rewrites (session : Session) : Move → Session → Prop where
  | create (source : Source) :
      Rewrites session (.create source) (session.create source)
  | change {source change frames} (how : Buffer.Rewriting change)
      (waiting : session.control.frames = frames) :
      Rewrites session .proceed
        ((session.modifySource source fun document =>
          { document with buffer := change document.buffer }).answering
            (.flag true) frames)

theorem marked_of_inner
    (inner : Inner (session.debts, session) (after.debts, after)) :
    Marked .inner session after := by
  have still : Effect .inner (session.debts, session) (session.debts, session) :=
    .aside (Nat.le_refl _) rfl fun held => held
  exact .first still inner

/-- What inner effects and the one that stands out keep is kept by the chain. -/
theorem Marked.induct {kind : EffectKind} (Holds : Debts → Session → Prop)
    (keeps : ∀ {other debts session after final}, other = .inner ∨ other = kind →
      Effect other (debts, session) (after, final) → Holds debts session →
        Holds after final)
    (marked : Marked kind session after) (holds : Holds session.debts session) :
    Holds after.debts after := by
  obtain ⟨start, finish, earlier, _, effect, later⟩ := marked
  have started := earlier.induct Holds (keeps (.inl rfl)) holds
  exact later.induct Holds (keeps (.inl rfl)) (keeps (.inr rfl) effect started)

/-- What a move can amount to. -/
inductive Moved (session : Session) : Move → Session → Prop where
  | inner {move after}
      (effects : Inner (session.debts, session) (after.debts, after)) :
      Moved session move after
  | rewritten {move after} (rewrites : session.Rewrites move after) :
      Moved session move after
  | brokenOff {run text} (reason : String) (member : run ∈ session.runs)
      (computing : run.phase = .computing text) :
      Moved session (.fail run.id run.generation reason)
        (session.breakOff run reason)
  | published {run text highlights lookup nanoseconds advanced} (member : run ∈ session.runs)
      (computed : run.phase = .computed text highlights lookup)
      (alive : session.isAlive run.source = true)
      (advance : (session.countLookup lookup nanoseconds).advanceState? run .computing
        .idle = some advanced) :
      Moved session (.poll run.id run.generation nanoseconds)
        (((advanced.count .published).note
          (.highlights run.id ⟨run.generation, text, highlights⟩)).finish run
            (.published (some ⟨run.generation, text, highlights⟩)))
  | unheeded {move id after} (exit : session.unheeded? move = some id)
      (effects : Marked (.unheeded id) session after) :
      Moved session move after

theorem removeRun_control (session : Session) (run : Run) :
    (session.removeRun run).control = session.control := by
  rw [removeRun_eq]

theorem cancelArmed_control (session : Session) (id : DocumentId) :
    (session.cancelArmed id).2.control = session.control := by
  unfold cancelArmed
  split
  · rfl
  · dsimp only
    split
    · rfl
    · exact removeRun_control _ _

theorem close_control (session : Session) :
    session.close.control = session.control := by
  have cancelled : ∀ (ids : List DocumentId) (session : Session),
      (ids.foldl (fun session id => (session.cancelArmed id).2) session).control =
        session.control := by
    intro ids
    induction ids with
    | nil => exact fun _ => rfl
    | cons id ids induction =>
        intro session
        rw [List.foldl_cons, induction, cancelArmed_control]
  exact cancelled session.registry.ids session

theorem endCall_control (session : Session) :
    session.endCall.control = session.control := by
  unfold endCall
  dsimp only
  split
  · exact close_control _
  · rfl

theorem finish_control (session : Session) (run : Run) (result : Answer) :
    (session.finish run result).control = session.control := by
  have removed := removeRun_control session run
  unfold finish reply
  split
  · exact removed
  · exact (endCall_control _).trans removed
  · exact (endCall_control _).trans removed

theorem passLock_control (session : Session) (id : DocumentId) :
    (session.passLock id).control = session.control := by
  rw [passLock_eq]

theorem breakOff_control (session : Session) (run : Run) (reason : String) :
    (session.breakOff run reason).control = session.control :=
  passLock_control _ _

theorem complete_control (session : Session) (run : Run) (text : Text) :
    (session.complete run text).control = session.control := by
  obtain ⟨cache, looked⟩ := highlightText_eq session text run.config.highlight
  have parted : (session.complete run text).control =
      (((session.highlightText text run.config.highlight).2.withoutRun run).passLock
        run.id).control := rfl
  rw [parted, passLock_control, looked]
  rfl

theorem closeDropped_control (session : Session) (run : Run) :
    (session.closeDropped run).control = session.control := by
  unfold closeDropped
  dsimp only
  split <;> rfl

theorem advanceState?_control {advanced : Session} {before after : DocumentState}
    (advance : session.advanceState? run before after = some advanced) :
    advanced.control = session.control := by
  obtain ⟨_, _, _, _, _, _, rfl⟩ := advanceState?_spec advance
  rfl

theorem countLookup_control (session : Session) (lookup : Lookup) (nanoseconds : Nat) :
    (session.countLookup lookup nanoseconds).control = session.control := by
  cases lookup <;> rfl

theorem conclude_control (session : Session) (run : Run) (text : Text)
    (highlights : Highlights) (lookup : Lookup) (nanoseconds : Nat) :
    (session.conclude run text highlights lookup nanoseconds).control =
      session.control := by
  have counted := countLookup_control session lookup nanoseconds
  unfold conclude
  dsimp only
  split
  · split
    case h_1 => exact (finish_control _ run _).trans counted
    case h_2 advance =>
        exact (finish_control _ run _).trans ((advanceState?_control advance).trans counted)
  · exact (finish_control _ run _).trans ((closeDropped_control _ run).trans counted)

theorem finishFailed_control (session : Session) (run : Run) (reason : String) :
    (session.finishFailed run reason).control = session.control := by
  refine (finish_control _ run _).trans ?_
  cases advance : session.advanceState? run .computing .idle with
  | none => rfl
  | some advanced =>
      have same := advanceState?_control advance
      exact same

theorem countLookup_runs (session : Session) (lookup : Lookup) (nanoseconds : Nat) :
    (session.countLookup lookup nanoseconds).runs = session.runs := by
  cases lookup <;> rfl

theorem countLookup_isAlive (session : Session) (lookup : Lookup) (nanoseconds : Nat)
    (source : SourceId) :
    (session.countLookup lookup nanoseconds).isAlive source = session.isAlive source := by
  cases lookup <;> rfl

theorem countLookup_registry (session : Session) (lookup : Lookup) (nanoseconds : Nat) :
    (session.countLookup lookup nanoseconds).registry = session.registry := by
  cases lookup <;> rfl

theorem countLookup_clock (session : Session) (lookup : Lookup) (nanoseconds : Nat) :
    (session.countLookup lookup nanoseconds).clock = session.clock := by
  cases lookup <;> rfl

theorem countLookup_log (session : Session) (lookup : Lookup) (nanoseconds : Nat) :
    (session.countLookup lookup nanoseconds).log = session.log := by
  cases lookup <;> rfl

theorem debts_congr (same : after.control = session.control) :
    after.debts = session.debts := by
  rw [debts, same, debts]

/-- The moves that can have an effect of a kind. -/
def Admits (session : Session) (move : Move) (after : Session) : EffectKind → Prop
  | .inner | .publication => True
  | .rewriting => session.Rewrites move after
  | .breakdown key => ∃ reason, move = .fail key.1 key.2 reason
  | .unheeded id => session.unheeded? move = some id

theorem Rewrites.marked {move : Move} (rewrites : session.Rewrites move after) :
    Marked .rewriting session after := by
  cases rewrites with
  | create source =>
      have rewritten : Effect .rewriting (session.debts, session)
          (session.debts, { session with sources := session.sources ++ [source] }) :=
        .rewrite (by simp)
      exact .first rewritten (.single (.aside (Nat.le_refl _) rfl fun held => held))
  | @change source change frames how waiting =>
      have rewritten : Effect .rewriting (session.debts, session)
          (session.debts, session.modifySource source fun document =>
            { document with buffer := change document.buffer }) :=
        .rewrite (by simp)
      refine .first rewritten ?_
      rw [show session.debts = .ofFrames frames by rw [debts, waiting]]
      exact answering_inner _ _ _ _

/-- Every move is a chain of effects of which one at most stands out, and that
one tells what the move was. -/
theorem Moved.marked {move : Move} (moved : session.Moved move after) :
    ∃ kind, Marked kind session after ∧ session.Admits move after kind := by
  cases moved with
  | inner effects => exact ⟨.inner, marked_of_inner effects, trivial⟩
  | rewritten rewrites => exact ⟨.rewriting, rewrites.marked, rewrites⟩
  | @brokenOff run text reason member computing =>
      refine ⟨.breakdown run.key, .first (.breakOff reason member computing) ?_,
        reason, rfl⟩
      rw [debts_congr (breakOff_control session run reason)]
  | @published run text highlights lookup nanoseconds advanced member computed alive advance =>
      have sameControl := (advanceState?_control advance).trans
        (countLookup_control session lookup nanoseconds)
      refine ⟨.publication, ⟨_, _, countLookup_inner session.debts session lookup nanoseconds,
        countLookup_log session lookup nanoseconds, .publish ?_ computed advance ?_, ?_⟩, trivial⟩
      · rwa [countLookup_runs]
      · rwa [countLookup_isAlive]
      · have finished := finish_control
          ((advanced.count .published).note
            (.highlights run.id ⟨run.generation, text, highlights⟩)) run
          (.published (some ⟨run.generation, text, highlights⟩))
        rw [debts_congr (finished.trans sameControl)]
        exact reply_inner _ _ _ _ _
  | unheeded exit effects => exact ⟨_, effects, exit⟩

/-! ## From moves to effects -/

theorem debts_of_perform {action : Action} {frames : List Frame}
    (waiting : session.control = .perform action frames) :
    session.debts = .ofFrames frames := by
  rw [debts, waiting]
  rfl

theorem debts_of_answer {answer : Answer} {frames : List Frame}
    (waiting : session.control = .answer answer frames) :
    session.debts = .ofFrames frames := by
  rw [debts, waiting]
  rfl

theorem rewriteSource_moved {action : Action} {frames : List Frame}
    {change : Buffer → Buffer} (source : SourceId)
    (waiting : session.control = .perform action frames)
    (how : Buffer.Rewriting change) :
    session.Moved .proceed
      ((session.rewriteSource source change).2.answering
        (session.rewriteSource source change).1 frames) := by
  unfold rewriteSource
  split
  · refine .inner ?_
    rw [debts_of_perform waiting]
    exact answering_inner _ _ _ _
  · exact .rewritten (.change how (by rw [waiting]; rfl))

theorem perform_of_performAtOnce? {action : Action} {frames : List Frame}
    {result : Answer × Session}
    (available : (action.needsScheduler && !session.held) = false)
    (performed : session.performAtOnce? action = some result) :
    session.perform action frames = result.2.answering result.1 frames := by
  unfold perform
  rw [if_neg (by simp [available])]
  cases action <;> cases performed <;> rfl

theorem perform_moved {action : Action} {frames : List Frame}
    (coherent : Coherent session.debts session)
    (waiting : session.control = .perform action frames) :
    session.Moved .proceed (session.perform action frames) := by
  have sameDebts := debts_of_perform waiting
  unfold perform
  split
  case isTrue =>
    refine .inner ?_
    rw [sameDebts]
    exact answering_inner _ _ _ _
  case isFalse available =>
    have held : action.needsScheduler → session.held = true := by
      simpa using available
    cases action with
    | replace source text => exact rewriteSource_moved source waiting (.replace text)
    | append source text => exact rewriteSource_moved source waiting (.append text)
    | edit id =>
        refine .inner ?_
        rw [sameDebts]
        exact (oweEdit_inner _ session id).trans (beginEdit_inner session id frames)
    | startNow id =>
        refine .inner ?_
        rw [sameDebts]
        exact (oweEdit_inner _ session id).trans
          (beginNow_inner session false id frames)
    | reconfigure settings =>
        refine .inner ?_
        rw [sameDebts]
        exact reconfigure_inner session settings (List.Subset.refl _) frames
    | release | register | unregister | sweep | shutdown | info | contains
    | settings | clearCache | describe | dropScheduler =>
        refine .inner ?_
        rw [sameDebts] at coherent ⊢
        exact (performAtOnce?_inner coherent held (by simp) (by simp) rfl).trans
          (answering_inner _ _ _ _)

/-- A run that reads a text over its ceiling says so although its document is
not tracked any more. -/
theorem takeSnapshot_marked (debts : Debts) {texts : List Run} {document : Source}
    (owed : debts.texts = run :: texts)
    (source : session.sources[run.source]? = some document)
    (above : document.text.exceeds run.config.maxChars = true)
    (untracked : session.registry.find? run.id = none) :
    ∃ start finish, Inner (debts, session) start ∧ start.2.log = session.log ∧
      Effect (.unheeded run.id) start finish ∧
      Inner finish ({ debts with texts }, session.takeSnapshot run) := by
  have returned : Inner (debts, session)
      (debts, session.modifySource run.source Source.endReading) :=
    modifySource_inner debts session fun document _ => document.endReading_content
  have found := modifySource_found Source.endReading source
  refine ⟨_, _, returned, rfl, .overrunUntracked owed found above untracked, ?_⟩
  have unmoved : (session.modifySource run.source Source.endReading).advanceState? run
      .computing .idle = none := by
    apply advanceState?_eq_none_iff.mpr
    intro entry foundEntry
    cases untracked.symm.trans foundEntry
  unfold takeSnapshot finishOversized
  rw [source]
  dsimp only
  rw [if_pos above, unmoved]
  exact reply_inner _ _ _ _ _

theorem snapshot_marked {answer : Answer} {frames : List Frame}
    (waiting : session.control = .answer answer (.snapshot run :: frames))
    (above : session.overruns run = true)
    (untracked : session.registry.contains run.id = false) :
    Marked (.unheeded run.id) session
      ((session.takeSnapshot run).answering .nothing frames) := by
  have sameDebts := debts_of_answer waiting
  obtain ⟨document, source, long⟩ := Option.any_eq_true _ _ |>.mp above
  obtain ⟨start, finish, earlier, sameLog, effect, later⟩ :=
    takeSnapshot_marked (.ofFrames (.snapshot run :: frames)) rfl source long
      (Registry.not_contains_iff.mp untracked)
  refine ⟨start, finish, ?_, sameLog, effect, later.trans (answering_inner _ _ _ _)⟩
  rw [sameDebts]
  exact earlier

theorem resume_moved {answer : Answer} {frame : Frame} {frames : List Frame}
    (coherent : Coherent session.debts session)
    (waiting : session.control = .answer answer (frame :: frames)) :
    session.Moved .proceed (session.resume answer frame frames) := by
  have sameDebts := debts_of_answer waiting
  rw [sameDebts] at coherent
  cases frame with
  | host =>
      refine .inner ?_
      rw [sameDebts]
      exact .single (.aside (Nat.le_refl _) rfl fun held => held)
  | call =>
      refine .inner ?_
      rw [sameDebts]
      exact (endCall_inner _ session).trans (answering_inner _ _ _ _)
  | acted action =>
      refine .inner ?_
      rw [sameDebts]
      exact .head (.remark (.acted action answer) rfl) (answering_inner _ _ _ _)
  | actions rest =>
      refine .inner ?_
      rw [sameDebts]
      cases rest with
      | nil => exact answering_inner _ _ _ _
      | cons action rest =>
          exact .single (.aside (Nat.le_refl _) rfl fun held => held)
  | measured id source =>
      refine .inner ?_
      rw [sameDebts]
      obtain ⟨_, asked⟩ := coherent.lengths (id, source) List.mem_cons_self
      refine (finishEdit_inner _ (fun entry found => asked found) frames).tail ?_
      exact .weaken (Debts.settle_oweEdit_edits (.ofFrames frames) id)
        (List.subset_cons_self _ _) rfl
  | snapshot run =>
      obtain ⟨_, _, inside⟩ := coherent.texts run List.mem_cons_self
      have source := List.getElem?_eq_getElem inside
      have overruns : session.overruns run =
          session.sources[run.source].text.exceeds run.config.maxChars := by
        rw [overruns, source]
        rfl
      by_cases exit : session.overruns run ∧ session.registry.contains run.id = false
      · have leaves : session.unheeded? .proceed = some run.id := by
          unfold unheeded?
          rw [waiting]
          exact if_pos exit
        exact .unheeded leaves (snapshot_marked waiting exit.1 exit.2)
      · refine .inner ?_
        rw [sameDebts]
        refine .trans (takeSnapshot_inner rfl source ?_) (answering_inner _ _ _ _)
        intro above
        rw [← overruns] at above
        simpa [above] using exit
  | rearm id rest outcomes =>
      refine .inner ?_
      rw [sameDebts]
      unfold resume
      dsimp only
      split
      · exact rearmNext_inner session rest _ frames
      · exact rearmNext_inner session rest _ frames

theorem finishStale_debts (session : Session) (run : Run) :
    (session.finishStale run).debts = session.debts :=
  debts_congr (finish_control _ run _)

theorem finishDropped_debts (session : Session) (run : Run) :
    (session.finishDropped run).debts = session.debts :=
  debts_congr ((finish_control _ run _).trans (closeDropped_control session run))

theorem finishFailed_debts (session : Session) (run : Run) (reason : String) :
    (session.finishFailed run reason).debts = session.debts :=
  debts_congr (finishFailed_control session run reason)

theorem countLookup_debts (session : Session) (lookup : Lookup) (nanoseconds : Nat) :
    (session.countLookup lookup nanoseconds).debts = session.debts :=
  debts_congr (countLookup_control session lookup nanoseconds)

theorem conclude_moved {text : Text} {highlights : Highlights} {lookup : Lookup}
    (member : run ∈ session.runs)
    (computed : run.phase = .computed text highlights lookup) (nanoseconds : Nat) :
    session.Moved (.poll run.id run.generation nanoseconds)
      (session.conclude run text highlights lookup nanoseconds) := by
  have counted := countLookup_inner session.debts session lookup nanoseconds
  have memberLater : run ∈ (session.countLookup lookup nanoseconds).runs := by
    rwa [countLookup_runs]
  have ready : run.phase.isReady = true := by rw [computed, Phase.isReady]
  have underWay : run.phase.state = .computing := by rw [computed, Phase.state]
  unfold conclude
  dsimp only
  split
  case isTrue alive =>
    rw [countLookup_isAlive] at alive
    cases advance :
        (session.countLookup lookup nanoseconds).advanceState? run .computing .idle with
    | none =>
        refine .inner ?_
        rw [finishStale_debts, countLookup_debts]
        exact counted.trans
          (finishStale_inner _ memberLater ready .idle (underWay ▸ advance))
    | some advanced => exact .published member computed alive advance
  case isFalse dead =>
    refine .inner ?_
    rw [finishDropped_debts, countLookup_debts]
    exact counted.trans
      (finishDropped_inner _ memberLater ready (Bool.eq_false_iff.mpr dead))

theorem finishFailed_marked {reason : String} (member : run ∈ session.runs)
    (failed : run.phase = .failed reason)
    (untracked : session.registry.contains run.id = false) :
    Marked (.unheeded run.id) session (session.finishFailed run reason) := by
  have absent := Registry.not_contains_iff.mp untracked
  have unmoved : session.advanceState? run .computing .idle = none := by
    apply advanceState?_eq_none_iff.mpr
    intro entry foundEntry
    cases absent.symm.trans foundEntry
  refine .first (.reportUntracked member failed absent) ?_
  rw [finishFailed_debts]
  unfold finishFailed
  rw [unmoved]
  exact reply_inner _ _ _ _ _

theorem finishFailed_moved {generation nanoseconds : Nat} {reason : String}
    (found : session.findRun? id generation = some run)
    (failed : run.phase = .failed reason) :
    session.Moved (.poll id generation nanoseconds)
      (session.finishFailed run reason) := by
  have member := findRun?_mem found
  by_cases tracked : session.registry.contains run.id = true
  · refine .inner ?_
    rw [finishFailed_debts]
    exact .head (.report member failed tracked) (reply_inner _ _ _ _ _)
  · have untracked := Bool.eq_false_iff.mpr tracked
    have leaves : session.unheeded? (.poll id generation nanoseconds) = some run.id := by
      unfold unheeded?
      simp only [found, failed]
      exact if_pos untracked
    exact .unheeded leaves (finishFailed_marked member failed untracked)

theorem poll_moved {generation : Nat} (idle : session.control = .idle)
    (found : session.findRun? id generation = some run)
    (ready : run.phase.isReady = true) (nanoseconds : Nat) :
    session.Moved (.poll id generation nanoseconds)
      (session.poll run nanoseconds) := by
  have member := findRun?_mem found
  have noDebts : session.debts = .ofFrames [] := by
    rw [debts, idle]
    rfl
  unfold poll
  cases phase : run.phase with
  | due =>
      refine .inner ?_
      rw [noDebts]
      exact requestLock_inner member phase []
  | granted =>
      refine .inner ?_
      rw [noDebts]
      exact beginWork_inner member (.inr phase) []
  | computed text highlights lookup =>
      cases (Prod.mk.inj (findRun?_key found)).1
      cases (Prod.mk.inj (findRun?_key found)).2
      exact conclude_moved member phase nanoseconds
  | failed reason => exact finishFailed_moved found phase
  | sleeping | waiting | reading | computing =>
      rw [phase] at ready
      cases ready

theorem proceed_moved (coherent : Coherent session.debts session)
    (busy : session.control ≠ .idle) :
    session.Moved .proceed session.proceed := by
  unfold proceed
  match waiting : session.control with
  | .idle => exact absurd waiting busy
  | .perform action frames => exact perform_moved coherent waiting
  | .answer answer [] =>
      refine .inner ?_
      rw [debts_of_answer waiting]
      exact .single (.aside (Nat.le_refl _) rfl fun held => held)
  | .answer answer (frame :: frames) => exact resume_moved coherent waiting

theorem isIdle_iff : session.isIdle = true ↔ session.control = .idle :=
  decide_eq_true_iff

theorem settleWithin_busy (busy : session.isIdle = false) (moves : Nat) :
    session.settleWithin (moves + 1) = session.proceed.settleWithin moves := by
  rw [settleWithin, nextMove?, busy]
  simp [move?, busy]

theorem debts_of_idle (idle : session.isIdle = true) :
    session.debts = .ofFrames [] := by
  rw [debts, isIdle_iff.mp idle]
  rfl

theorem highlightNow_inner (idle : session.isIdle = true) (held : session.held = true)
    (id : DocumentId) :
    Inner (session.debts.oweEdit id, session)
      ((session.highlightNow id).debts, session.highlightNow id) := by
  rw [debts_of_idle idle, highlightNow, if_pos held]
  exact beginNow_inner session true id []

theorem proceed_of_move (moved : session.move? .proceed = some after) :
    session.control ≠ .idle ∧ after = session.proceed := by
  obtain ⟨busy, same⟩ := Option.ite_none_left_eq_some.mp moved
  cases same
  exact ⟨fun idle => busy (isIdle_iff.mpr idle), rfl⟩

/-- What a session comes to by each of the moves that are possible in it. -/
inductive Makes (session : Session) : Move → Session → Prop where
  | create (idle : session.isIdle = true) (source : Source) :
      Makes session (.create source) (session.create source)
  | act (idle : session.isIdle = true) (action : Action) :
      Makes session (.act action) (session.act action)
  | highlightNow (idle : session.isIdle = true) (id : DocumentId) :
      Makes session (.highlightNow id) (session.highlightNow id)
  | proceed (busy : session.control ≠ .idle) : Makes session .proceed session.proceed
  | tell {notice : Notice} (member : notice ∈ session.notices) :
      Makes session (.tell notice)
        ({ session with notices := session.notices.erase notice }.note (.closed notice.id))
  | wake {id : DocumentId} {generation deadline : Nat} {run : Run}
      (found : session.findRun? id generation = some run)
      (sleeping : run.phase = .sleeping deadline) (passed : deadline ≤ session.clock) :
      Makes session (.wake id generation) (session.enterPhase run .due)
  | poll {id : DocumentId} {generation nanoseconds : Nat} {run : Run}
      (idle : session.isIdle = true)
      (found : session.findRun? id generation = some run)
      (ready : run.phase.isReady = true) :
      Makes session (.poll id generation nanoseconds) (session.poll run nanoseconds)
  | complete {id : DocumentId} {generation : Nat} {run : Run} {text : Text}
      (found : session.findRun? id generation = some run)
      (computing : run.phase = .computing text) :
      Makes session (.complete id generation) (session.complete run text)
  | fail {id : DocumentId} {generation : Nat} {run : Run} {text : Text}
      (found : session.findRun? id generation = some run)
      (computing : run.phase = .computing text) (reason : String) :
      Makes session (.fail id generation reason) (session.breakOff run reason)
  | tick {time : Nat} (later : session.clock ≤ time) :
      Makes session (.tick time) { session with clock := time }

theorem move?_makes {move : Move} (moved : session.move? move = some after) :
    session.Makes move after := by
  cases move with
  | create source =>
      obtain ⟨idle, same⟩ := Option.ite_none_right_eq_some.mp moved
      cases same
      exact .create idle source
  | act action =>
      obtain ⟨idle, same⟩ := Option.ite_none_right_eq_some.mp moved
      cases same
      exact .act idle action
  | highlightNow id =>
      obtain ⟨idle, same⟩ := Option.ite_none_right_eq_some.mp moved
      cases same
      exact .highlightNow idle id
  | proceed =>
      obtain ⟨busy, rfl⟩ := proceed_of_move moved
      exact .proceed busy
  | tell notice =>
      obtain ⟨⟨_, member⟩, same⟩ := Option.ite_none_right_eq_some.mp moved
      cases same
      exact .tell member
  | wake id generation =>
      obtain ⟨_, woken⟩ := Option.ite_none_right_eq_some.mp moved
      split at woken
      case h_1 => cases woken
      case h_2 run found =>
        split at woken
        case h_2 => cases woken
        case h_1 deadline sleeping =>
          obtain ⟨passed, same⟩ := Option.ite_none_right_eq_some.mp woken
          cases same
          exact .wake found sleeping passed
  | poll id generation nanoseconds =>
      obtain ⟨idle, polled⟩ := Option.ite_none_right_eq_some.mp moved
      split at polled
      case h_1 => cases polled
      case h_2 run found =>
        obtain ⟨ready, same⟩ := Option.ite_none_right_eq_some.mp polled
        cases same
        exact .poll idle found ready
  | complete id generation =>
      rw [move?] at moved
      split at moved
      case h_1 => cases moved
      case h_2 run found =>
        split at moved
        case h_2 => cases moved
        case h_1 text computing =>
          cases moved
          exact .complete found computing
  | fail id generation reason =>
      rw [move?] at moved
      split at moved
      case h_1 => cases moved
      case h_2 run found =>
        split at moved
        case h_2 => cases moved
        case h_1 text computing =>
          cases moved
          exact .fail found computing reason
  | tick time =>
      obtain ⟨⟨_, later⟩, same⟩ := Option.ite_none_right_eq_some.mp moved
      cases same
      exact .tick later

/-- Every move is one of those listed. -/
theorem move?_moved {move : Move} (coherent : Coherent session.debts session)
    (moved : session.move? move = some after) : session.Moved move after := by
  cases move?_makes moved with
  | create _ source => exact .rewritten (.create source)
  | act idle =>
      refine .inner ?_
      rw [debts_of_idle idle]
      exact .single (.aside (Nat.le_refl _) rfl fun held => held)
  | highlightNow idle id =>
      refine .inner ?_
      by_cases held : session.held = true
      · exact (oweEdit_inner _ session id).trans (highlightNow_inner idle held id)
      · rw [highlightNow, if_neg held]
        exact .single (.aside (Nat.le_refl _) rfl fun held => held)
  | proceed busy => exact proceed_moved coherent busy
  | tell member => exact .inner (.single (.tell member))
  | wake found sleeping passed =>
      exact .inner (.single (.wake (findRun?_mem found) sleeping passed))
  | poll idle found ready => exact poll_moved (isIdle_iff.mp idle) found ready _
  | @complete _ _ run text found computing =>
      refine .inner ?_
      rw [debts_congr (complete_control session run text)]
      exact .single (.complete (findRun?_mem found) computing)
  | fail found computing reason =>
      cases (Prod.mk.inj (findRun?_key found)).1
      cases (Prod.mk.inj (findRun?_key found)).2
      exact .brokenOff reason (findRun?_mem found) computing
  | tick later => exact .inner (.single (.aside later rfl fun held => held))

/-- Where this was foreseen, a move does tell of a document that is not tracked
any more. -/
theorem marked_of_unheeded {move : Move} (exit : session.unheeded? move = some id)
    (moved : session.move? move = some after) :
    Marked (.unheeded id) session after := by
  unfold unheeded? at exit
  split at exit
  case h_1 =>
    split at exit
    case h_2 => cases exit
    case h_1 answer run frames waiting =>
      split at exit
      case isFalse => cases exit
      case isTrue untold =>
        cases exit
        rw [(proceed_of_move moved).2, proceed, waiting]
        exact snapshot_marked waiting untold.1 untold.2
  case h_2 id generation nanoseconds =>
    split at exit
    case h_2 => cases exit
    case h_1 run found =>
      split at exit
      case h_2 => cases exit
      case h_1 reason failed =>
        split at exit
        case isFalse => cases exit
        case isTrue untracked =>
          cases exit
          simp only [move?, found, failed, Phase.isReady, if_true] at moved
          split at moved
          case isFalse => cases moved
          case isTrue =>
            cases moved
            unfold poll
            rw [failed]
            exact finishFailed_marked (findRun?_mem found) failed untracked
  case h_3 => cases exit

end Session

end LogTint
