import LogTint.Proofs.CoherentEffects

/-!
# Operations as chains of effects

Everything that a move does is a chain of effects.  The chains are found
operation by operation, for any stack of frames that waits for the operation,
so that the same lemma serves the host, the calls of a document that acts and
the edits that follow a change of settings.
-/

namespace LogTint

theorem Source.endReading_content (document : Source) :
    document.endReading.content = document.content := rfl

/-- What is owed beside an edit is still owed once the edit is settled. -/
theorem Debts.settle_oweEdit_edits (debts : Debts) (id : DocumentId) :
    ((debts.oweEdit id).settle id).edits ⊆ debts.edits := by
  intro other owed
  obtain ⟨member, different⟩ := mem_settle.mp owed
  exact (List.mem_cons.mp member).resolve_left different

namespace Session

variable {debts : Debts} {session : Session} {run : Run} {id : DocumentId}

theorem modifySource_contents {source : SourceId} {change : Source → Source}
    (keeps : ∀ document, session.sources[source]? = some document →
      (change document).content = document.content) :
    (session.modifySource source change).sources.map Source.content =
      session.sources.map Source.content := by
  apply List.ext_getElem?
  intro index
  rw [modifySource, List.getElem?_map, List.getElem?_map, List.getElem?_modify]
  by_cases here : source = index
  · subst index
    cases found : session.sources[source]? with
    | none => simp
    | some document => simp [keeps document found]
  · simp [here]

theorem modifySource_found {source : SourceId} {document : Source}
    (change : Source → Source) (found : session.sources[source]? = some document) :
    (session.modifySource source change).sources[source]? =
      some (change document) := by
  rw [modifySource, List.getElem?_modify, found]
  simp

theorem answering_inner (debts : Debts) (session : Session) (answer : Answer)
    (frames : List Frame) :
    Inner (debts, session) (debts, session.answering answer frames) :=
  .single (.aside (Nat.le_refl _) rfl fun held => held)

theorem beginCall_inner (debts : Debts) (session : Session) :
    Inner (debts, session) (debts, session.beginCall) :=
  .single (.aside (Nat.le_refl _) rfl fun held => held)

theorem modifySource_inner (debts : Debts) (session : Session)
    {source : SourceId} {change : Source → Source}
    (keeps : ∀ document, session.sources[source]? = some document →
      (change document).content = document.content) :
    Inner (debts, session) (debts, session.modifySource source change) :=
  .single (.aside (Nat.le_refl _) (modifySource_contents keeps) fun held => held)

/-- The scheduler goes with its last call if the host has given it up. -/
theorem endCall_inner (debts : Debts) (session : Session) :
    Inner (debts, session) (debts, session.endCall) := by
  have ended : Inner (debts, session)
      (debts, { session with calls := session.calls - 1 }) :=
    .single (.aside (Nat.le_refl _) rfl fun held => held)
  unfold endCall
  dsimp only
  split
  case isTrue above =>
    simp only [Bool.not_eq_true'] at above
    exact ended.tail (.close above.2.1 above.2.2)
  case isFalse => exact ended

theorem giveUp_inner (debts : Debts) (session : Session) :
    Inner (debts, session) (debts, session.giveUp) := by
  have released : Inner (debts, session) (debts, { session with held := false }) :=
    .single (.aside (Nat.le_refl _) rfl fun held => by cases held)
  unfold giveUp
  dsimp only
  split
  case isTrue above =>
    simp only [Bool.not_eq_true'] at above
    exact released.tail (.close rfl above.2)
  case isFalse => exact released

theorem reply_inner (debts : Debts) (session : Session) (origin : Origin)
    (id : DocumentId) (result : Answer) :
    Inner (debts, session) (debts, session.reply origin id result) := by
  match origin with
  | .timer => exact .refl
  | .call true =>
      exact .head (.aside (Nat.le_refl _) rfl fun held => held)
        (endCall_inner debts { session with answer := result })
  | .call false =>
      exact .head (.remark (.returned id result) rfl)
        (endCall_inner debts (session.note (.returned id result)))

/-! ## Runs -/

theorem finishStale_inner (debts : Debts) (member : run ∈ session.runs)
    (ready : run.phase.isReady) (after : DocumentState)
    (overtaken : session.advanceState? run run.phase.state after = none) :
    Inner (debts, session) (debts, session.finishStale run) :=
  .head (.stale after member ready overtaken) (reply_inner debts _ _ _ _)

theorem finishDropped_inner (debts : Debts) (member : run ∈ session.runs)
    (ready : run.phase.isReady) (gone : session.isAlive run.source = false) :
    Inner (debts, session) (debts, session.finishDropped run) :=
  .head (.drop member ready gone) (reply_inner debts _ _ _ _)

/-- The text that a run was after is taken.  A text over the ceiling of the run
is told to the host, which is expected for a tracked document only. -/
theorem takeSnapshot_inner {texts : List Run} {document : Source}
    (owed : debts.texts = run :: texts)
    (source : session.sources[run.source]? = some document)
    (heeded : document.text.exceeds run.config.maxChars = true →
      session.registry.contains run.id = true) :
    Inner (debts, session) ({ debts with texts }, session.takeSnapshot run) := by
  have returned : Inner (debts, session)
      (debts, session.modifySource run.source Source.endReading) :=
    modifySource_inner debts session fun document _ => document.endReading_content
  have found := modifySource_found Source.endReading source
  unfold takeSnapshot
  rw [source]
  dsimp only
  split
  case isTrue above =>
    exact returned.trans
      (.head (.overrun owed found above (heeded above)) (reply_inner _ _ _ _ _))
  case isFalse within =>
    have read := Effect.read owed found (Bool.eq_false_iff.mpr within)
    exact returned.tail read

/-- A run whose edit is still the latest begins to read. -/
theorem startReading_inner {advanced : Session} {document : Source}
    (debts : Debts) (member : run ∈ session.runs)
    (ready : run.phase = .due ∨ run.phase = .granted)
    (advance : session.advanceState? run .pending .computing = some advanced)
    (source : advanced.sources[run.source]? = some document)
    (alive : advanced.isAlive run.source = true) :
    Inner (debts, session)
      ({ debts with texts := { run with phase := .reading } :: debts.texts },
        (advanced.modifySource run.source fun _ => document.beginSnapshot.2).enterPhase
          run .reading) := by
  obtain ⟨entry, registry, _, _, _, _, rfl⟩ := advanceState?_spec advance
  refine .head (.start member ready advance alive) (.single ?_)
  refine .aside (Nat.le_refl _) ?_ fun held => held
  apply modifySource_contents
  intro other found
  cases source.symm.trans found
  rfl

theorem beginWork_inner (member : run ∈ session.runs)
    (ready : run.phase = .due ∨ run.phase = .granted) (frames : List Frame) :
    Inner (.ofFrames frames, session)
      ((session.beginWork run frames).debts, session.beginWork run frames) := by
  have isReady : run.phase.isReady = true := by
    rcases ready with due | granted
    · rw [due]
      rfl
    · rw [granted]
      rfl
  have pending : run.phase.state = .pending := by
    rcases ready with due | granted
    · rw [due]
      rfl
    · rw [granted]
      rfl
  unfold beginWork
  cases advance : session.advanceState? run .pending .computing with
  | none =>
      exact (finishStale_inner _ member isReady .computing (pending ▸ advance)).trans
        (answering_inner _ _ _ _)
  | some advanced =>
      obtain ⟨entry, registry, found, _, _, edited, same⟩ := advanceState?_spec advance
      dsimp only
      split
      case isFalse dead =>
        have gone : session.isAlive run.source = false := by
          rw [same] at dead
          exact Bool.eq_false_iff.mpr dead
        rw [show advanced.finishDropped run = session.finishDropped run from
          congrArg (finish · run _) (closeDropped_of_advance advance)]
        exact (finishDropped_inner _ member isReady gone).trans
          (answering_inner _ _ _ _)
      case isTrue alive =>
        cases source : advanced.sources[run.source]? with
        | none =>
            rw [isAlive, source] at alive
            cases alive
        | some document =>
            have started := startReading_inner (.ofFrames frames) member ready
              advance source alive
            unfold readSource
            rw [source]
            dsimp only
            split
            case isTrue quiet =>
              refine (started.trans ?_).trans (answering_inner _ _ _ _)
              refine takeSnapshot_inner rfl (modifySource_found _ source) fun _ => ?_
              rw [same]
              exact Registry.contains_iff.mpr
                ⟨_, edited.find?_some found⟩
            case isFalse acting =>
              exact started.trans (answering_inner _ _ _ _)

theorem requestLock_inner (member : run ∈ session.runs) (due : run.phase = .due)
    (frames : List Frame) :
    Inner (.ofFrames frames, session)
      ((session.requestLock run frames).debts, session.requestLock run frames) := by
  unfold requestLock
  split
  case isTrue => exact .head (.wait member due) (answering_inner _ _ _ _)
  case isFalse => exact beginWork_inner member (.inl due) frames

theorem countLookup_inner (debts : Debts) (session : Session) (lookup : Lookup)
    (nanoseconds : Nat) :
    Inner (debts, session) (debts, session.countLookup lookup nanoseconds) := by
  cases lookup with
  | uncached => exact .single (.count _ rfl)
  | hit => exact .single (.count _ rfl)
  | miss => exact .tail (.single (.count _ rfl)) (.count _ rfl)

/-! ## Edits and calls -/

theorem applyEdit_inner (debts : Debts) {chars : Nat}
    (measured : ∀ entry, session.registry.find? id = some entry →
      session.settings.maxChars < chars → ∃ document,
        session.sources[entry.source]? = some document ∧ document.length = chars) :
    Inner (debts, session) (debts.settle id, (session.applyEdit id chars).2) := by
  unfold applyEdit
  cases found : session.registry.find? id with
  | none => exact .single (.forget found)
  | some entry =>
      dsimp only
      split
      case isTrue above =>
        obtain ⟨document, source, length⟩ := measured entry found above
        exact .single (.bypass found source (length ▸ above))
      case isFalse => exact .single (.arm found)

theorem finishEdit_inner (debts : Debts) {source : SourceId}
    (asked : ∀ entry, session.registry.find? id = some entry → entry.source = source)
    (frames : List Frame) :
    Inner (debts, session) (debts.settle id, session.finishEdit id source frames) := by
  have returned : Inner (debts, session)
      (debts, session.modifySource source Source.endReading) :=
    modifySource_inner debts session fun document _ => document.endReading_content
  unfold finishEdit
  refine (returned.trans (applyEdit_inner debts ?_)).trans (answering_inner _ _ _ _)
  intro entry found above
  rw [asked entry found]
  cases document : session.sources[source]? with
  | none =>
      rw [document] at above
      exact absurd above (Nat.not_lt_zero _)
  | some document =>
      exact ⟨_, modifySource_found _ document, rfl⟩

theorem release_find? (session : Session) (id : DocumentId) :
    (session.release id).registry.find? id = none := by
  unfold release
  split
  case isTrue => exact (Registry.find?_erase _ id id).trans (if_pos rfl)
  case isFalse untracked => exact Option.not_isSome_iff_eq_none.mp untracked

/-- An edit that is owed waits for the length of its document. -/
theorem measured_inner {entry : Entry}
    (found : session.registry.find? id = some entry) (frames : List Frame) :
    Inner ((Debts.ofFrames frames).oweEdit id, session)
      (.ofFrames (.measured id entry.source :: frames), session) := by
  have weakened : Effect .inner
      ({ ((Debts.ofFrames frames).oweEdit id).oweEdit id with
          lengths := (id, entry.source) :: (Debts.ofFrames frames).lengths },
        session)
      (.ofFrames (.measured id entry.source :: frames), session) :=
    .weaken (List.cons_subset.mpr ⟨List.mem_cons_self, List.Subset.refl _⟩)
      (List.Subset.refl _) rfl
  exact .head (.measure found) (.single weakened)

theorem beginEdit_inner (session : Session) (id : DocumentId) (frames : List Frame) :
    Inner ((Debts.ofFrames frames).oweEdit id, session)
      ((session.beginEdit id frames).debts, session.beginEdit id frames) := by
  have settled : ∀ session : Session,
      Inner (((Debts.ofFrames frames).oweEdit id).settle id, session)
        (.ofFrames frames, session) := fun session =>
    .single (.weaken (Debts.settle_oweEdit_edits _ id) (List.Subset.refl _) rfl)
  refine (beginCall_inner _ session).trans ?_
  unfold beginEdit
  dsimp only
  cases found : session.beginCall.registry.find? id with
  | none =>
      exact (Relation.ReflTransGen.head (.forget found) (settled _)).trans
        (answering_inner _ _ _ _)
  | some entry =>
      refine .head (.count .edit rfl) ?_
      dsimp only
      split
      case h_1 dead =>
        have tracked : (session.beginCall.count .edit).registry.contains id :=
          Registry.contains_iff.mpr ⟨entry, found⟩
        have untracked := release_find? (session.beginCall.count .edit) id
        refine .head (.abandon tracked)
          ((Relation.ReflTransGen.head (.forget untracked) (settled _)).trans
            (answering_inner _ _ _ _))
      case h_2 document alive =>
        obtain ⟨source, _⟩ := Option.filter_eq_some_iff.mp alive
        have measuring : Inner
            ((Debts.ofFrames frames).oweEdit id, session.beginCall.count .edit)
            ((Debts.ofFrames frames).oweEdit id,
              (session.beginCall.count .edit).modifySource entry.source
                fun _ => document.beginLength.2) := by
          apply modifySource_inner
          intro other foundSource
          cases source.symm.trans foundSource
          rfl
        refine measuring.trans ?_
        split
        case isTrue quiet =>
          refine (finishEdit_inner _ ?_ _).trans (settled _)
          intro other foundAgain
          cases found.symm.trans foundAgain
          rfl
        case isFalse acting =>
          refine (measured_inner ?_ frames).trans (answering_inner _ _ _ _)
          exact found

theorem rearmNext_inner (session : Session) (rest : List DocumentId)
    (outcomes : List (DocumentId × EditOutcome)) (frames : List Frame) :
    Inner
      ({ Debts.ofFrames frames with edits := rest ++ (Debts.ofFrames frames).edits },
        session)
      ((session.rearmNext rest outcomes frames).debts,
        session.rearmNext rest outcomes frames) := by
  cases rest with
  | nil => exact answering_inner _ _ _ _
  | cons next later =>
      exact beginEdit_inner session next (.rearm next later outcomes :: frames)

theorem reconfigure_valid {settings : Settings} {ids : List DocumentId}
    {frames : List Frame} (valid : settings.validate = .ok ()) :
    session.reconfigure settings ids frames =
      rearmNext { session.beginCall with settings } ids [] (.call :: frames) := by
  unfold reconfigure
  rw [valid]

/-- The tracked documents may be edited in any order. -/
theorem reconfigure_inner (session : Session) (settings : Settings)
    {ids : List DocumentId} (all : session.registry.ids ⊆ ids) (frames : List Frame) :
    Inner (.ofFrames frames, session)
      ((session.reconfigure settings ids frames).debts,
        session.reconfigure settings ids frames) := by
  refine (beginCall_inner _ session).trans ?_
  unfold reconfigure
  dsimp only
  split
  case h_1 => exact answering_inner _ _ _ _
  case h_2 =>
    refine .head (.reconfigure settings) (.head ?_
      (rearmNext_inner _ ids [] (.call :: frames)))
    refine .weaken ?_ (List.Subset.refl _) rfl
    exact List.append_subset.mpr
      ⟨List.Subset.trans all (List.subset_append_left _ _), List.subset_append_right _ _⟩

theorem beginNow_inner (session : Session) (awaited : Bool) (id : DocumentId)
    (frames : List Frame) :
    Inner ((Debts.ofFrames frames).oweEdit id, session)
      ((session.beginNow awaited id frames).debts,
        session.beginNow awaited id frames) := by
  have settled : ∀ session : Session,
      Inner (((Debts.ofFrames frames).oweEdit id).settle id, session)
        (.ofFrames frames, session) := fun session =>
    .single (.weaken (Debts.settle_oweEdit_edits _ id) (List.Subset.refl _) rfl)
  refine (beginCall_inner _ session).trans ?_
  unfold beginNow
  dsimp only
  cases found : session.beginCall.registry.find? id with
  | none =>
      exact (Relation.ReflTransGen.head (.forget found) (settled _)).trans
        ((reply_inner _ _ _ _ _).trans (answering_inner _ _ _ _))
  | some entry =>
      refine (Relation.ReflTransGen.head (.call awaited found) (settled _)).trans ?_
      exact requestLock_inner
        (List.mem_append_right _ (List.mem_singleton_self _)) rfl frames

/-- Owing an edit that is about to be made does no harm. -/
theorem oweEdit_inner (debts : Debts) (session : Session) (id : DocumentId) :
    Inner (debts, session) (debts.oweEdit id, session) :=
  .single (.weaken (List.subset_cons_self id _) (List.Subset.refl _) rfl)

end Session

end LogTint
