import LogTint.Proofs.Idleness
import LogTint.Proofs.Publication

/-!
# Calls under way

A call that highlights a document at once is a run whose timer is never armed.
Whatever else the host, its documents and the other runs do, the run stays in
the session with what it was called for, and nothing is delivered on its behalf
before it goes on itself.  `UnderWay` says so, and one lemma for each operation
says that the operation keeps it.
-/

namespace LogTint

/-- The highlights that an event delivers on behalf of the run with a key. -/
def Event.deliveryBy? (key : DocumentId × Nat) (event : Event) : Option Publication :=
  (event.deliveryOf? key.1).filter (·.generation = key.2)

namespace Event

variable {key : DocumentId × Nat} {event : Event}

theorem deliveryBy?_of_publication? (plain : event.publication? = none) :
    event.deliveryBy? key = none := by
  rw [deliveryBy?, deliveryOf?, plain]
  rfl

theorem deliveryBy?_other {id : DocumentId} {publication : Publication}
    (other : (id, publication.generation) ≠ key) :
    (highlights id publication).deliveryBy? key = none := by
  simp only [deliveryBy?, deliveryOf?, publication?]
  by_cases here : id = key.1
  · have generation : publication.generation ≠ key.2 := fun same => other (Prod.ext here same)
    simp [here, generation]
  · simp [here]

end Event

namespace Entry

/-- A generation is none to come, and its run is not the armed one. -/
def Spares (entry : Entry) (generation : Nat) : Prop :=
  generation ≤ entry.generation ∧ entry.armed ≠ some generation

variable {entry : Entry} {generation : Nat}

theorem Spares.disarmed (spares : entry.Spares generation) :
    entry.disarmed.Spares generation :=
  ⟨spares.1, nofun⟩

theorem Spares.shut (spares : entry.Spares generation) : entry.shut.Spares generation :=
  ⟨spares.1, nofun⟩

theorem Spares.renewed (spares : entry.Spares generation) (state : DocumentState) :
    (entry.renewed state).Spares generation := by
  constructor
  · rw [renewed_generation]
    exact Nat.le_succ_of_le spares.1
  · rw [renewed_armed]
    nofun

theorem Spares.advanced (spares : entry.Spares generation) (before after : DocumentState) :
    (entry.advanced before after).Spares generation := by
  refine ⟨spares.1, ?_⟩
  unfold Entry.advanced
  dsimp only
  split
  · nofun
  · exact spares.2

end Entry

namespace Session

variable {session after : Session} {call run : Run} {id : DocumentId}

/-- What was delivered on behalf of the run with a key. -/
def deliveriesOf (session : Session) (key : DocumentId × Nat) : List Publication :=
  session.log.filterMap (·.2.deliveryBy? key)

theorem deliveriesOf_append {key : DocumentId × Nat} {new : List (Nat × Event)}
    (log : after.log = session.log ++ new) :
    after.deliveriesOf key = session.deliveriesOf key ++ new.filterMap (·.2.deliveryBy? key) := by
  rw [deliveriesOf, log, List.filterMap_append, deliveriesOf]

theorem deliveriesOf_note (session : Session) (event : Event) {key : DocumentId × Nat}
    (plain : event.deliveryBy? key = none) :
    (session.note event).deliveriesOf key = session.deliveriesOf key := by
  have nothing : [(session.clock, event)].filterMap (·.2.deliveryBy? key) = [] := by
    simp [plain]
  rw [deliveriesOf_append rfl, nothing, List.append_nil]

theorem deliveriesOf_note_own (session : Session) (run : Run) (text : Text)
    (highlights : Highlights) :
    (session.note (.highlights run.id ⟨run.generation, text, highlights⟩)).deliveriesOf
        run.key =
      session.deliveriesOf run.key ++ [⟨run.generation, text, highlights⟩] := by
  let delivery : Event := .highlights run.id ⟨run.generation, text, highlights⟩
  have own : delivery.deliveryBy? run.key = some ⟨run.generation, text, highlights⟩ := by
    simp [delivery, Event.deliveryBy?, Event.deliveryOf?, Event.publication?, Run.key]
  have once : [(session.clock, delivery)].filterMap (·.2.deliveryBy? run.key) =
      [⟨run.generation, text, highlights⟩] := by
    simp [own]
  rw [deliveriesOf_append rfl, once]

/-- The run of a call has not ended. -/
structure UnderWay (session : Session) (call : Run) : Prop where
  distinct : Run.Distinct session.runs
  present : ∃ run ∈ session.runs, run.key = call.key
  same : ∀ run ∈ session.runs, run.key = call.key → run = { call with phase := run.phase }
  spared : ∀ {entry}, session.registry.find? call.id = some entry →
    entry.Spares call.generation
  known : call.id.number < session.nextId
  silent : session.deliveriesOf call.key = []

namespace UnderWay

theorem unarmed (underWay : session.UnderWay call) : ¬session.IsArmed call.key := by
  intro isArmed
  obtain ⟨entry, found, armed⟩ := isArmed_iff.mp isArmed
  exact (underWay.spared found).2 armed

/-! ## What is kept -/

/-- Runs may end and locks be granted, as long as the run of the call is kept. -/
theorem keep {keep : DocumentId × Nat → Prop} (underWay : session.UnderWay call)
    (kept : Run.Kept keep session.runs after.runs) (keeps : keep call.key)
    (spared : ∀ {entry}, after.registry.find? call.id = some entry →
      entry.Spares call.generation)
    (nextId : session.nextId ≤ after.nextId)
    (log : after.deliveriesOf call.key = session.deliveriesOf call.key) :
    after.UnderWay call where
  distinct := kept.distinct
  present := by
    obtain ⟨run, member, sameKey⟩ := underWay.present
    obtain ⟨later, laterMember, continues⟩ := kept.lasts run member (sameKey ▸ keeps)
    exact ⟨later, laterMember, continues.key.trans sameKey⟩
  same run member sameKey := by
    obtain ⟨earlier, earlierMember, _, continues⟩ := kept.origin run member
    have called := underWay.same earlier earlierMember (continues.key.symm.trans sameKey)
    rcases continues with rfl | ⟨_, rfl⟩
    · exact called
    · rw [called]
  spared := spared
  known := Nat.lt_of_lt_of_le underWay.known nextId
  silent := log.trans underWay.silent

/-- A run joins the others or enters another phase. -/
theorem join {others : List Run} (joined : Run) (underWay : session.UnderWay call)
    (kept : Run.Kept (· ≠ joined.key) session.runs others)
    (runs : after.runs = others ++ [joined])
    (called : joined.key = call.key → joined = { call with phase := joined.phase })
    (spared : ∀ {entry}, after.registry.find? call.id = some entry →
      entry.Spares call.generation)
    (nextId : session.nextId ≤ after.nextId)
    (log : after.deliveriesOf call.key = session.deliveriesOf call.key) :
    after.UnderWay call where
  distinct := by
    rw [runs]
    exact kept.distinct.append fun other member => kept.keeps_of_mem member
  present := by
    rw [runs]
    by_cases own : call.key = joined.key
    · exact ⟨joined, List.mem_append_right _ (List.mem_singleton_self _), own.symm⟩
    · obtain ⟨run, member, sameKey⟩ := underWay.present
      obtain ⟨later, laterMember, continues⟩ := kept.lasts run member (sameKey ▸ own)
      exact ⟨later, List.mem_append_left _ laterMember, continues.key.trans sameKey⟩
  same run member sameKey := by
    rw [runs] at member
    rcases List.mem_append.mp member with other | last
    · obtain ⟨earlier, earlierMember, _, continues⟩ := kept.origin run other
      have called := underWay.same earlier earlierMember (continues.key.symm.trans sameKey)
      rcases continues with rfl | ⟨_, rfl⟩
      · exact called
      · rw [called]
    · rw [List.mem_singleton.mp last] at sameKey ⊢
      exact called sameKey
  spared := spared
  known := Nat.lt_of_lt_of_le underWay.known nextId
  silent := log.trans underWay.silent

theorem congr (underWay : session.UnderWay call) (registry : after.registry = session.registry)
    (runs : after.runs = session.runs) (nextId : after.nextId = session.nextId)
    (log : after.log = session.log) : after.UnderWay call := by
  have kept : Run.Kept (fun _ => True) session.runs after.runs := by
    rw [runs]
    exact .refl underWay.distinct
  exact underWay.keep kept trivial (fun found => underWay.spared (registry ▸ found))
    (Nat.le_of_eq nextId.symm) (by rw [deliveriesOf, log, deliveriesOf])

theorem note (underWay : session.UnderWay call) (event : Event)
    (plain : event.deliveryBy? call.key = none) : (session.note event).UnderWay call :=
  underWay.keep (.refl underWay.distinct) trivial underWay.spared (Nat.le_refl _)
    (deliveriesOf_note session event plain)

theorem count (underWay : session.UnderWay call) (occurrence : Occurrence) :
    (session.count occurrence).UnderWay call :=
  underWay.congr rfl rfl rfl rfl

theorem answering (underWay : session.UnderWay call) (answer : Answer)
    (frames : List Frame) : (session.answering answer frames).UnderWay call :=
  underWay.congr rfl rfl rfl rfl

theorem modifySource (underWay : session.UnderWay call) (source : SourceId)
    (change : Source → Source) : (session.modifySource source change).UnderWay call :=
  underWay.congr rfl rfl rfl rfl

theorem spared_of_edited {change : DocumentId → Entry → Entry} {registry : Registry}
    (underWay : session.UnderWay call)
    (edited : Registry.Edited change session.registry registry)
    (spares : ∀ {entry : Entry}, entry.Spares call.generation →
      (change call.id entry).Spares call.generation) {entry : Entry}
    (found : registry.find? call.id = some entry) : entry.Spares call.generation := by
  obtain ⟨earlier, foundBefore, rfl⟩ := edited.exists_of_find? found
  exact spares (underWay.spared foundBefore)

theorem modifyEntry (underWay : session.UnderWay call) (id : DocumentId)
    {change : Entry → Entry} (sameId : ∀ entry, (change entry).id = entry.id)
    (spares : ∀ {entry : Entry}, call.id = id → entry.Spares call.generation →
      (change entry).Spares call.generation) :
    (session.modifyEntry id change).UnderWay call := by
  refine underWay.keep (.refl underWay.distinct) trivial (underWay.spared_of_edited
    (Registry.edited_modify change sameId session.registry id) fun spared => ?_)
    (Nat.le_refl _) rfl
  split
  case isTrue here => exact spares here spared
  case isFalse => exact spared

/-! ## Edits, calls and releases -/

theorem renew (underWay : session.UnderWay call) (id : DocumentId) (state : DocumentState) :
    ((session.supersede id).setState id state).UnderWay call := by
  obtain ⟨registry, runs, metrics, edited, kept, renewed⟩ :=
    session.renew_spec underWay.distinct id state
  rw [renewed]
  refine underWay.keep kept (fun armed => underWay.unarmed armed.2)
    (underWay.spared_of_edited edited fun spared => ?_) (Nat.le_refl _) rfl
  split
  · exact spared.renewed state
  · exact spared

theorem release (underWay : session.UnderWay call) (id : DocumentId) :
    (session.release id).UnderWay call := by
  by_cases tracked : session.registry.contains id = true
  · obtain ⟨registry, runs, metrics, _, find?, kept, released⟩ :=
      session.release_spec underWay.distinct tracked
    rw [released]
    refine underWay.keep kept (fun armed => underWay.unarmed armed.2) (fun found => ?_)
      (Nat.le_refl _) rfl
    rw [find?] at found
    split at found
    · cases found
    · exact underWay.spared found
  · rw [Session.release, if_neg tracked]
    exact underWay

theorem releaseAndTell (underWay : session.UnderWay call) (id : DocumentId) :
    (session.releaseAndTell id).UnderWay call :=
  (underWay.release id).note _ rfl

theorem releaseAll (underWay : session.UnderWay call) (ids : List DocumentId) :
    (ids.foldl Session.releaseAndTell session).UnderWay call := by
  induction ids generalizing session with
  | nil => exact underWay
  | cons id ids induction => exact induction (underWay.releaseAndTell id)

theorem close (underWay : session.UnderWay call) : session.close.UnderWay call := by
  obtain ⟨registry, runs, edited, kept, closed⟩ := session.close_spec underWay.distinct
  rw [closed]
  exact underWay.keep kept underWay.unarmed
    (underWay.spared_of_edited edited fun spared => spared.shut) (Nat.le_refl _) rfl

theorem endCall (underWay : session.UnderWay call) : session.endCall.UnderWay call := by
  have ended : UnderWay { session with calls := session.calls - 1 } call :=
    underWay.congr rfl rfl rfl rfl
  unfold Session.endCall
  dsimp only
  split
  · exact ended.close
  · exact ended

theorem giveUp (underWay : session.UnderWay call) : session.giveUp.UnderWay call := by
  have released : UnderWay { session with held := false } call :=
    underWay.congr rfl rfl rfl rfl
  unfold Session.giveUp
  dsimp only
  split
  · exact released.close
  · exact released

theorem erase (underWay : session.UnderWay call) (id : DocumentId) :
    UnderWay { session with registry := session.registry.erase id } call := by
  refine underWay.keep (.refl underWay.distinct) trivial (fun found => ?_) (Nat.le_refl _) rfl
  rw [Registry.find?_erase] at found
  split at found
  · cases found
  · exact underWay.spared found

theorem closeDropped (underWay : session.UnderWay call) (run : Run) :
    (session.closeDropped run).UnderWay call := by
  by_cases tracked : session.registry.contains run.id = true
  · rw [closeDropped_tracked tracked]
    exact (((underWay.count .discarded).erase run.id).count .documentClosed).note _ rfl
  · rw [closeDropped_untracked tracked]
    exact underWay.count .discarded

theorem advance {advanced : Session} {old new : DocumentState}
    (underWay : session.UnderWay call)
    (advance : session.advanceState? run old new = some advanced) :
    advanced.UnderWay call := by
  obtain ⟨_, registry, _, _, _, edited, rfl⟩ := advanceState?_spec advance
  refine underWay.keep (.refl underWay.distinct) trivial
    (underWay.spared_of_edited edited fun spared => ?_) (Nat.le_refl _) rfl
  split
  · exact spared.advanced old new
  · exact spared

theorem settle (underWay : session.UnderWay call) (run : Run) (old new : DocumentState) :
    ((session.advanceState? run old new).getD session).UnderWay call := by
  cases advance : session.advanceState? run old new with
  | none => exact underWay
  | some advanced => exact underWay.advance advance

/-- A run that joins the others is not that of the call. -/
theorem append (joined : Run) (underWay : session.UnderWay call)
    (fresh : ∀ run ∈ session.runs, run.key ≠ joined.key)
    (runs : after.runs = session.runs ++ [joined])
    (registry : after.registry = session.registry) (nextId : after.nextId = session.nextId)
    (log : after.log = session.log) : after.UnderWay call := by
  have kept : Run.Kept (· ≠ joined.key) session.runs session.runs :=
    (Run.Kept.refl underWay.distinct).congr fun run member =>
      (true_iff _).mpr (fresh run member)
  obtain ⟨present, member, sameKey⟩ := underWay.present
  refine underWay.join joined kept runs (fun own => ?_)
    (fun found => underWay.spared (registry ▸ found)) (Nat.le_of_eq nextId.symm)
    (by rw [deliveriesOf, log, deliveriesOf])
  exact absurd (sameKey.trans own.symm) (fresh present member)

theorem arm (underWay : session.UnderWay call) {generation : Nat}
    (fresh : ∀ run ∈ session.runs, run.key ≠ (id, generation)) (source : SourceId)
    (config : WorkerConfig) : (session.arm id source generation config).UnderWay call := by
  have armed : (session.modifyEntry id fun entry =>
      { entry with armed := some generation }).UnderWay call := by
    refine underWay.modifyEntry id (fun _ => rfl) fun here spared => ⟨spared.1, ?_⟩
    obtain ⟨run, member, sameKey⟩ := underWay.present
    rintro ⟨⟩
    exact fresh run member (sameKey.trans (Prod.ext here rfl))
  let joined : Run :=
    ⟨id, generation, source, config, .timer, .sleeping (session.clock + config.debounce)⟩
  exact armed.append joined fresh rfl rfl rfl rfl

end UnderWay

/-- The next edit of a document gives it a generation that no run has. -/
def Unused (session : Session) (id : DocumentId) : Prop :=
  ∀ {entry}, session.registry.find? id = some entry →
    ∀ run ∈ session.runs, run.key ≠ (id, entry.generation + 1)

theorem unused_of_coherent {debts : Debts} (coherent : Coherent debts session)
    (id : DocumentId) : session.Unused id := by
  intro entry found run member sameKey
  have here : run.id = id := congrArg Prod.fst sameKey
  have generation : run.generation = entry.generation + 1 := congrArg Prod.snd sameKey
  have bound := (coherent.bounded run member (here ▸ found)).1
  omega

/-- Runs that an edit leaves have generations of before. -/
theorem Unused.of_kept {keep : DocumentId × Nat → Prop} {runs others : List Run}
    {key : DocumentId × Nat} (unused : ∀ run ∈ runs, run.key ≠ key)
    (kept : Run.Kept keep runs others) : ∀ run ∈ others, run.key ≠ key := by
  intro run member
  obtain ⟨earlier, earlierMember, _, continues⟩ := kept.origin run member
  rw [continues.key]
  exact unused earlier earlierMember

theorem Unused.renew (unused : session.Unused id) (distinct : Run.Distinct session.runs)
    {entry : Entry} (found : session.registry.find? id = some entry)
    (state : DocumentState) :
    ∀ run ∈ ((session.supersede id).setState id state).runs,
      run.key ≠ (id, entry.generation + 1) := by
  obtain ⟨registry, runs, metrics, _, kept, renewed⟩ := session.renew_spec distinct id state
  rw [renewed]
  exact Unused.of_kept (unused found) kept

namespace UnderWay

theorem applyEdit (underWay : session.UnderWay call) (unused : session.Unused id)
    (chars : Nat) : (session.applyEdit id chars).2.UnderWay call := by
  unfold Session.applyEdit
  split
  case h_1 => exact underWay
  case h_2 entry found =>
      dsimp only
      split
      · exact (underWay.renew id .idle).count .bypassed
      · exact (underWay.renew id .pending).arm
          (unused.renew underWay.distinct found .pending) entry.source _

theorem finishEdit (underWay : session.UnderWay call) (unused : session.Unused id)
    (source : SourceId) (frames : List Frame) :
    (session.finishEdit id source frames).UnderWay call := by
  have returned := underWay.modifySource source Source.endReading
  have unusedReturned : (session.modifySource source Source.endReading).Unused id := unused
  exact (returned.applyEdit unusedReturned _).answering _ frames

theorem beginEdit (underWay : session.UnderWay call) (unused : session.Unused id)
    (frames : List Frame) : (session.beginEdit id frames).UnderWay call := by
  have called : session.beginCall.UnderWay call := underWay.congr rfl rfl rfl rfl
  have counted := called.count .edit
  unfold Session.beginEdit
  dsimp only
  split
  case h_1 => exact called.answering _ _
  case h_2 entry found =>
      split
      case h_1 =>
          have sent : (((session.beginCall.count .edit).release id).sendNotice id).UnderWay
              call := (counted.release id).congr rfl rfl rfl rfl
          exact sent.answering _ _
      case h_2 document _ =>
          have begun := counted.modifySource entry.source fun _ => document.beginLength.2
          split
          · have unusedBegun : Unused _ id := unused
            exact begun.finishEdit unusedBegun entry.source _
          · exact begun.answering _ _

theorem rearmNext (underWay : session.UnderWay call) (unused : ∀ id, session.Unused id)
    (rest : List DocumentId) (outcomes : List (DocumentId × EditOutcome))
    (frames : List Frame) : (session.rearmNext rest outcomes frames).UnderWay call := by
  cases rest with
  | nil => exact underWay.answering _ frames
  | cons next later => exact underWay.beginEdit (unused next) _

theorem reconfigure (underWay : session.UnderWay call) (unused : ∀ id, session.Unused id)
    (settings : Settings) (ids : List DocumentId) (frames : List Frame) :
    (session.reconfigure settings ids frames).UnderWay call := by
  have called : session.beginCall.UnderWay call := underWay.congr rfl rfl rfl rfl
  unfold Session.reconfigure
  dsimp only
  split
  · exact called.answering _ _
  · have adopted : UnderWay { session.beginCall with settings } call :=
      underWay.congr rfl rfl rfl rfl
    have unusedAdopted : ∀ id, Unused { session.beginCall with settings } id := unused
    exact adopted.rearmNext unusedAdopted ids [] _

theorem register (underWay : session.UnderWay call) (source : SourceId) :
    (session.register source).2.UnderWay call := by
  unfold Session.register
  split
  · exact underWay
  · refine underWay.keep (.refl underWay.distinct) trivial (fun found => ?_)
      (Nat.le_succ _) rfl
    rcases Registry.find?_add_some found with earlier | ⟨_, new, _⟩
    · exact underWay.spared earlier
    · have known := underWay.known
      rw [← new] at known
      exact absurd known (Nat.lt_irrefl _)

theorem performAtOnce? {action : Action} {result : Answer × Session}
    (underWay : session.UnderWay call)
    (performed : session.performAtOnce? action = some result) :
    result.2.UnderWay call := by
  cases action with
  | replace source text | append source text =>
      cases performed
      unfold rewriteSource
      split
      · exact underWay
      · exact underWay.modifySource source _
  | release source =>
      cases performed
      unfold releaseSource
      split
      · exact underWay
      · exact underWay.modifySource source _
  | register source =>
      cases performed
      exact underWay.register source
  | unregister id =>
      cases performed
      unfold unregister
      split
      · exact underWay.releaseAndTell id
      · exact underWay
  | sweep =>
      cases performed
      exact underWay.releaseAll _
  | shutdown =>
      rw [Session.performAtOnce?, shutdown_eq] at performed
      cases performed
      exact underWay.releaseAll _
  | info | contains | settings | describe =>
      cases performed
      exact underWay
  | clearCache =>
      cases performed
      exact underWay.congr rfl rfl rfl rfl
  | dropScheduler =>
      cases performed
      dsimp only
      split
      · exact underWay.giveUp
      · exact underWay
  | edit | startNow | reconfigure => cases performed

/-! ## Runs -/

theorem countLookup (underWay : session.UnderWay call) (lookup : Lookup)
    (nanoseconds : Nat) : (session.countLookup lookup nanoseconds).UnderWay call :=
  underWay.congr (countLookup_registry session lookup nanoseconds)
    (countLookup_runs session lookup nanoseconds) (by cases lookup <;> rfl)
    (countLookup_log session lookup nanoseconds)

/-- A run enters another phase. -/
theorem enter {others : List Run} {phase : Phase} (underWay : session.UnderWay call)
    (member : run ∈ session.runs) (kept : Run.Kept (· ≠ run.key) session.runs others)
    (runs : after.runs = others ++ [{ run with phase }])
    (registry : after.registry = session.registry) (nextId : after.nextId = session.nextId)
    (log : after.log = session.log) : after.UnderWay call := by
  have called : run.key = call.key → { run with phase } = { call with phase } := by
    intro own
    rw [underWay.same run member own]
  exact underWay.join { run with phase } kept runs called
    (fun found => underWay.spared (registry ▸ found)) (Nat.le_of_eq nextId.symm)
    (by rw [deliveriesOf, log, deliveriesOf])

theorem enterPhase (underWay : session.UnderWay call) (member : run ∈ session.runs)
    (phase : Phase) : (session.enterPhase run phase).UnderWay call := by
  obtain ⟨others, kept, runs⟩ := enterPhase_runs session underWay.distinct run phase
  exact underWay.enter member kept runs rfl rfl rfl

theorem complete (underWay : session.UnderWay call) (member : run ∈ session.runs)
    (text : Text) : (session.complete run text).UnderWay call := by
  obtain ⟨others, cache, kept, _, completed⟩ :=
    session.complete_spec underWay.distinct run text
  rw [completed]
  exact underWay.enter member kept rfl rfl rfl rfl

theorem breakOff (underWay : session.UnderWay call) (member : run ∈ session.runs)
    (reason : String) : (session.breakOff run reason).UnderWay call := by
  obtain ⟨others, kept, broken⟩ := session.breakOff_spec underWay.distinct run reason
  rw [broken]
  exact underWay.enter member kept rfl rfl rfl rfl

theorem removeRun (underWay : session.UnderWay call) (other : run.key ≠ call.key) :
    (session.removeRun run).UnderWay call := by
  have kept := removeRun_runs session underWay.distinct run
  rw [removeRun_eq]
  exact underWay.keep kept other.symm underWay.spared (Nat.le_refl _) rfl

theorem reply (underWay : session.UnderWay call) (origin : Origin) (id : DocumentId)
    (result : Answer) : (session.reply origin id result).UnderWay call := by
  have answered : UnderWay { session with answer := result } call :=
    underWay.congr rfl rfl rfl rfl
  unfold Session.reply
  split
  · exact underWay
  · exact answered.endCall
  · exact (underWay.note _ rfl).endCall

theorem finish (underWay : session.UnderWay call) (other : run.key ≠ call.key)
    (result : Answer) : (session.finish run result).UnderWay call :=
  (underWay.removeRun other).reply run.origin run.id result

end UnderWay

end Session

end LogTint
