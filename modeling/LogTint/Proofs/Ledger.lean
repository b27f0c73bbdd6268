import LogTint.Proofs.Books

/-!
# The ledger of a history

A history is summed up by a ledger of what no counter tells: the edits that
were answered, the calls that found their document, and the timers that were
cancelled because their document was released.  Edits, calls and releases change
the books by what they enter in it.
-/

namespace LogTint

/-- What a history has brought about that no counter tells. -/
structure Ledger where
  /-- Edits that were answered as scheduled. -/
  scheduled : Nat
  /-- Calls to highlight at once that found their document. -/
  called : Nat
  /-- Edits that failed although their document was found at first. -/
  failed : Nat
  /-- Armed timers that were cancelled with the release of their document. -/
  cancelled : Nat
deriving DecidableEq

namespace Ledger

def blank : Ledger := ⟨0, 0, 0, 0⟩

instance : Add Ledger where
  add left right :=
    ⟨left.scheduled + right.scheduled, left.called + right.called,
      left.failed + right.failed, left.cancelled + right.cancelled⟩

/-- What is entered for the answer of an edit that had found its document. -/
def judge : Option Answer → Ledger
  | some (.outcome .scheduled) => { blank with scheduled := 1 }
  | some (.failure _) => { blank with failed := 1 }
  | _ => blank

/-- The answer of an edit tells nothing of calls and releases. -/
theorem judge_eq (verdict : Option Answer) :
    { judge verdict with called := 0, cancelled := 0 } = judge verdict := by
  unfold judge
  split <;> rfl

end Ledger

namespace Books

/-- The books after what a ledger tells. -/
def enter (books : Books) (ledger : Ledger) : Books :=
  books.post
    (.ofNat ledger.scheduled + .ofNat ledger.called - .ofNat ledger.cancelled)
    (.ofNat ledger.scheduled + .ofNat ledger.failed)

@[simp] theorem enter_blank (books : Books) : books.enter .blank = books :=
  books.post_zero

theorem enter_enter (books : Books) (first second : Ledger) :
    (books.enter first).enter second = books.enter (first + second) := by
  rw [enter, enter, enter, post_post]
  congr 1
  · change _ = UInt64.ofNat (first.scheduled + second.scheduled) +
      .ofNat (first.called + second.called) - .ofNat (first.cancelled + second.cancelled)
    grind [UInt64.ofNat_add]
  · change _ = UInt64.ofNat (first.scheduled + second.scheduled) +
      .ofNat (first.failed + second.failed)
    grind [UInt64.ofNat_add]

end Books

/-- Whether a frame waits for the length of a document that is edited. -/
def Frame.isMeasured : Frame → Bool
  | .measured _ _ => true
  | _ => false

/-- Number of edits that wait for the length of their document. -/
def measuring (frames : List Frame) : UInt64 := .ofNat (frames.countP Frame.isMeasured)

@[simp] theorem measuring_nil : measuring [] = 0 := rfl

@[simp] theorem measuring_cons (frame : Frame) (frames : List Frame) :
    measuring (frame :: frames) =
      measuring frames + if frame.isMeasured then 1 else 0 := by
  unfold measuring
  rw [List.countP_cons, UInt64.ofNat_add]
  split <;> rfl

namespace Session

/-- The document whose edit begins when what is carried out goes on. -/
def nextEdit? (session : Session) : Option DocumentId :=
  match session.control with
  | .perform (.edit id) _ => if session.held then some id else none
  | .perform (.reconfigure settings) _ =>
      match settings.validate with
      | .ok () => if session.held then session.registry.ids.head? else none
      | .error _ => none
  | .answer _ (.rearm _ rest _ :: _) => rest.head?
  | _ => none

/-- The same, if the document is found. -/
def beginning? (session : Session) : Option DocumentId :=
  session.nextEdit?.filter session.registry.contains

/-- Whether an edit that has found its document is next to go on. -/
def isEditing (session : Session) : Bool :=
  match session.control with
  | .answer _ (.measured _ _ :: _) => true
  | _ => session.beginning?.isSome

/-- The answer that was just given. -/
def verdict? (session : Session) : Option Answer :=
  match session.control with
  | .answer answer _ => some answer
  | _ => none

/-- Whether a move is a call to highlight a tracked document at once. -/
def asksNow (session : Session) (move : Move) : Bool :=
  match move, session.control with
  | .highlightNow id, _ => session.held && session.registry.contains id
  | .proceed, .perform (.startNow id) _ => session.held && session.registry.contains id
  | _, _ => false

/-- The documents that an action releases at once. -/
def releases (session : Session) : Action → List DocumentId
  | .unregister id => [id]
  | .sweep => session.droppedIds
  | .shutdown => session.registry.ids
  | _ => []

/-- The documents that are released when what is carried out goes on.  An edit
releases its document if that was given up. -/
def releasing (session : Session) : List DocumentId :=
  (match session.control with
    | .perform action _ => if session.held then session.releases action else []
    | _ => []) ++
    session.beginning?.toList.filter (· ∈ session.droppedIds)

/-- Whether the timer of a document is armed. -/
def hasTimer (session : Session) (id : DocumentId) : Bool :=
  ((session.registry.find? id).bind (·.armed)).isSome

/-- What a move enters in the ledger. -/
def entered (session : Session) (move : Move) (after : Session) : Ledger :=
  match move with
  | .proceed =>
      { if session.isEditing then Ledger.judge after.verdict? else .blank with
        called := if session.asksNow .proceed then 1 else 0
        cancelled := session.releasing.countP session.hasTimer }
  | move => { Ledger.blank with called := if session.asksNow move then 1 else 0 }

/-- What the moves of a history enter in the ledger. -/
def ledger (session : Session) : List Move → Ledger
  | [] => .blank
  | move :: later =>
      match session.move? move with
      | some after => session.entered move after + after.ledger later
      | none => .blank

/-- The books but for the edits in progress. -/
def balance (session : Session) : Books :=
  session.books.post 0 (-measuring session.control.frames)

variable {debts : Debts} {session middle after : Session} {run : Run} {id : DocumentId}
  {frames : List Frame}

/-! ## Edits -/

theorem append_books (session : Session) (run : Run) :
    books { session with runs := session.runs ++ [run] } = session.books.post 1 0 := by
  refine (books_of_runs _).trans ?_
  rw [List.length_append, List.length_singleton]
  congr 1
  grind [UInt64.ofNat_add]

theorem arm_books (session : Session) (id : DocumentId) (source : SourceId)
    (generation : Nat) (config : WorkerConfig) :
    (session.arm id source generation config).books = session.books.post 1 0 := by
  have armed := session.modifyEntry_books id
    (fun entry => { entry with armed := some generation }) fun _ => rfl
  exact (append_books _ _).trans (congrArg (Books.post · 1 0) armed)

/-- An edit was answered, and the books tell how. -/
inductive Judged (books : Books) : Answer → Books → Prop where
  | failed (error : HighlightError) : Judged books (.failure error) books
  | bypassed : Judged books (.outcome .bypassed) (books.post 0 (-1))
  | scheduled : Judged books (.outcome .scheduled) (books.post 1 0)

theorem applyEdit_judged (session : Session) (distinct : Run.Distinct session.runs)
    (id : DocumentId) (chars : Nat) :
    Judged session.books (session.applyEdit id chars).1
      (session.applyEdit id chars).2.books := by
  have superseded := supersede_books session distinct id
  unfold applyEdit
  split
  case h_1 => exact .failed _
  case h_2 entry found =>
      dsimp only
      split
      case isTrue =>
          rw [books_count, setState_books, superseded]
          exact .bypassed
      case isFalse =>
          rw [arm_books, setState_books, superseded]
          exact .scheduled

theorem finishEdit_judged (session : Session) (distinct : Run.Distinct session.runs)
    (id : DocumentId) (source : SourceId) (frames : List Frame) :
    ∃ answer, (session.finishEdit id source frames).control = .answer answer frames ∧
      Judged session.books answer (session.finishEdit id source frames).books :=
  ⟨_, rfl, applyEdit_judged (session.modifySource source Source.endReading) distinct id _⟩

theorem verdict?_of_waiting {answer : Answer}
    (waiting : after.control = .answer answer frames) :
    after.verdict? = some answer := by
  rw [verdict?, waiting]

/-- What an edit leaves once it is answered. -/
theorem Judged.balance {books : Books} {answer : Answer}
    (judged : Judged books answer after.books)
    (waiting : after.control = .answer answer frames) :
    after.balance =
      (books.post 0 (-measuring frames - 1)).enter (.judge after.verdict?) := by
  have left : measuring after.control.frames = measuring frames := by
    rw [waiting]
    rfl
  rw [Session.balance, verdict?_of_waiting waiting, left]
  generalize measuring frames = number
  generalize after.books = final at judged
  cases judged <;> simp only [Ledger.judge, Books.enter, Ledger.blank, Books.post_post] <;>
    congr 1 <;> grind

theorem cancelArmed_fst_eq_hasTimer (coherent : Coherent debts session)
    (present : session.dropped = false) (id : DocumentId) :
    (session.cancelArmed id).1 = session.hasTimer id := by
  unfold hasTimer
  cases found : session.registry.find? id with
  | none =>
      unfold cancelArmed
      rw [found]
      rfl
  | some entry =>
      have here := Registry.find?_id found
      have open_ := coherent.present present found
      rw [← here, cancelArmed_fst_eq coherent found open_]
      rfl

/-- How far an edit gets at once. -/
inductive Begun (session : Session) (id : DocumentId) (frames : List Frame)
    (after : Session) : Prop where
  | missing {error : HighlightError} (untracked : session.registry.contains id = false)
      (books : after.books = session.books)
      (waiting : after.control = .answer (.failure error) (.call :: frames))
  | dead {error : HighlightError} (tracked : session.registry.contains id = true)
      (gone : id ∈ session.droppedIds)
      (books : after.books =
        session.books.post (if session.hasTimer id then -1 else 0) 1)
      (waiting : after.control = .answer (.failure error) (.call :: frames))
  | acting {source : SourceId} {actions : List Action}
      (tracked : session.registry.contains id = true)
      (alive : id ∉ session.droppedIds) (books : after.books = session.books.post 0 1)
      (waiting : after.control =
        .answer .nothing (.actions actions :: .measured id source :: .call :: frames))
  | judged {answer : Answer} (tracked : session.registry.contains id = true)
      (alive : id ∉ session.droppedIds)
      (judged : Judged (session.books.post 0 1) answer after.books)
      (waiting : after.control = .answer answer (.call :: frames))

theorem beginEdit_begun (coherent : Coherent debts session)
    (present : session.dropped = false) (id : DocumentId) (frames : List Frame) :
    session.Begun id frames (session.beginEdit id frames) := by
  let counted := session.beginCall.count .edit
  have coherentCounted : Coherent debts counted :=
    (coherent.ofEffects (beginCall_inner debts session).effects).ofEffect (.count .edit rfl)
  have books : counted.books = session.books.post 0 1 :=
    books_count session.beginCall .edit
  unfold beginEdit
  dsimp only
  cases found : session.beginCall.registry.find? id with
  | none => exact .missing (Registry.not_contains_iff.mpr found) rfl rfl
  | some entry =>
      have tracked := Registry.contains_iff.mpr ⟨entry, found⟩
      have dropped := mem_droppedIds_iff coherent.ids found
      rw [isAlive_eq] at dropped
      dsimp only
      split
      case h_1 dead =>
          have released := release_sendNotice_books counted coherentCounted.ids
            coherentCounted.distinct tracked
          rw [cancelArmed_fst_eq_hasTimer coherentCounted present, books,
            Books.post_post] at released
          have gone : (session.sources[entry.source]?.filter Source.isAlive).isSome =
            false := congrArg Option.isSome dead
          refine .dead tracked (dropped.mpr gone) (released.trans ?_) rfl
          rw [UInt64.zero_add, UInt64.add_zero]
          rfl
      case h_2 document alive =>
          have living : id ∉ session.droppedIds := by
            intro gone
            cases (congrArg Option.isSome alive).symm.trans (dropped.mp gone)
          split
          case isTrue quiet =>
              obtain ⟨answer, waiting, judged⟩ := finishEdit_judged
                (counted.modifySource entry.source fun _ => document.beginLength.2)
                coherentCounted.distinct id entry.source (.call :: frames)
              exact .judged tracked living (books ▸ judged) waiting
          case isFalse acting => exact .acting tracked living books rfl

/-- What the beginning of an edit enters in the ledger. -/
def begunLedger (session : Session) (id : DocumentId) (after : Session) : Ledger :=
  if session.registry.contains id then
    { Ledger.judge after.verdict? with
      called := 0
      cancelled := if id ∈ session.droppedIds ∧ session.hasTimer id then 1 else 0 }
  else .blank

theorem Begun.balance (begun : session.Begun id frames after) :
    after.balance =
      (session.books.post 0 (-measuring frames)).enter (session.begunLedger id after) := by
  cases begun with
  | missing untracked books waiting =>
      rw [Session.balance, begunLedger, if_neg (by simp [untracked]), books, waiting]
      simp [Control.frames, Frame.isMeasured]
  | dead tracked gone books waiting =>
      rw [Session.balance, begunLedger, if_pos tracked, books, waiting,
        verdict?_of_waiting waiting]
      simp only [Control.frames, measuring_cons, Frame.isMeasured, Books.enter,
        Ledger.judge, Ledger.blank, Books.post_post, gone, true_and]
      congr 1
      · split <;> rfl
      · grind
  | acting tracked alive books waiting =>
      rw [Session.balance, begunLedger, if_pos tracked, books, waiting,
        verdict?_of_waiting waiting]
      simp only [Control.frames, measuring_cons, Frame.isMeasured, Books.enter,
        Ledger.judge, Ledger.blank, Books.post_post, alive, false_and]
      congr 1
      grind
  | judged tracked alive judged waiting =>
      rw [judged.balance waiting, begunLedger, if_pos tracked, Books.post_post]
      simp only [alive, false_and, if_false, Ledger.judge_eq, measuring_cons,
        Frame.isMeasured]
      congr 2
      grind

/-- An edit that begins is entered as such. -/
theorem entered_of_nextEdit? (next : session.nextEdit? = some id) (after : Session) :
    session.entered .proceed after = session.begunLedger id after := by
  have beginning : session.beginning? =
      if session.registry.contains id then some id else none := by
    rw [beginning?, next]
    rfl
  have editing : session.isEditing = session.registry.contains id := by
    unfold isEditing
    split
    case h_1 waiting =>
        rw [nextEdit?, waiting] at next
        cases next
    case h_2 =>
        rw [beginning]
        split <;> simp_all
  have quiet : session.asksNow .proceed = false := by
    unfold asksNow
    split <;> simp_all [nextEdit?]
  have releases : session.releasing =
      session.beginning?.toList.filter fun id => decide (id ∈ session.droppedIds) := by
    unfold releasing
    split
    case h_1 action _ waiting => cases action <;> simp_all [nextEdit?, Session.releases]
    case h_2 => rfl
  by_cases tracked : session.registry.contains id = true
  · by_cases gone : id ∈ session.droppedIds <;>
      simp [entered, begunLedger, editing, quiet, releases, beginning, tracked, gone,
        List.countP_singleton]
  · simp [entered, begunLedger, editing, quiet, releases, beginning, tracked,
      Ledger.blank]

/-! ## Calls and releases -/

theorem beginNow_books (coherent : Coherent debts session) (awaited : Bool)
    (id : DocumentId) (frames : List Frame)
    (present : (session.beginNow awaited id frames).dropped = false) :
    (session.beginNow awaited id frames).books =
      session.books.post (if session.registry.contains id then 1 else 0) 0 := by
  have called : Coherent debts session.beginCall :=
    coherent.ofEffects (beginCall_inner debts session).effects
  unfold beginNow at present ⊢
  dsimp only at present ⊢
  cases found : session.beginCall.registry.find? id with
  | none =>
      have untracked : session.registry.contains id = false :=
        Registry.not_contains_iff.mpr found
      rw [found] at present
      rw [untracked]
      refine (reply_books session.beginCall _ _ _ present).trans ?_
      exact (Books.post_zero _).symm
  | some entry =>
      have tracked : session.registry.contains id = true :=
        Registry.contains_iff.mpr ⟨entry, found⟩
      have joined := called.ofEffect (.call awaited found)
      have superseded := supersede_books session.beginCall called.distinct id
      rw [found] at present
      rw [if_pos tracked]
      refine (requestLock_books _ joined (List.mem_append_right _
        (List.mem_singleton_self _)) rfl frames present).trans ?_
      rw [append_books, setState_books, superseded]
      rfl

theorem releaseAll_books (ids : List DocumentId) (coherent : Coherent debts session)
    (present : session.dropped = false) (distinct : ids.Nodup)
    (tracked : ∀ id ∈ ids, session.registry.contains id = true) :
    (ids.foldl releaseAndTell session).books =
      session.books.post (-.ofNat (ids.countP session.hasTimer)) 0 := by
  induction ids generalizing session with
  | nil => simp
  | cons id ids induction =>
      obtain ⟨fresh, distinct⟩ := List.nodup_cons.mp distinct
      have here := tracked id List.mem_cons_self
      have coherentAfter := coherent.ofEffect (.unregister here)
      have first := releaseAndTell_books session coherent.ids coherent.distinct here
      rw [cancelArmed_fst_eq_hasTimer coherent present] at first
      obtain ⟨registry, runs, metrics, _, find?, _, released⟩ :=
        session.release_spec coherent.distinct here
      have others : ∀ other ∈ ids,
          (session.releaseAndTell id).registry.find? other =
            session.registry.find? other := by
        intro other member
        have different : other ≠ id := by
          rintro rfl
          exact fresh member
        rw [releaseAndTell, released]
        exact (find? other).trans (if_neg different)
      have sameTimers : ids.countP (session.releaseAndTell id).hasTimer =
          ids.countP session.hasTimer := by
        refine List.countP_congr fun other member => ?_
        rw [hasTimer, hasTimer, others other member]
      rw [List.foldl_cons, induction coherentAfter ?_ distinct ?_, first, sameTimers,
        Books.post_post, List.countP_cons]
      · congr 1
        split <;> grind [UInt64.ofNat_add]
      · rw [releaseAndTell, released]
        exact present
      · intro other member
        rw [Registry.contains, others other member]
        exact tracked other (List.mem_cons_of_mem _ member)

theorem register_books (session : Session) (coherent : Coherent debts session)
    (source : SourceId) : (session.register source).2.books = session.books := by
  unfold register
  split
  case h_1 => rfl
  case h_2 =>
      have fresh : (⟨session.nextId⟩ : DocumentId) ∉ session.registry.ids := by
        intro member
        obtain ⟨entry, found⟩ := Registry.mem_ids_iff.mp member
        exact Nat.lt_irrefl _ (coherent.known found)
      dsimp only
      rw [books_count]
      apply Books.ext
      case active | registered =>
          simp only [books, Books.count, Registry.ids_add, List.length_append,
            List.length_singleton]
          grind [UInt64.ofNat_add]
      case closed =>
          funext other
          obtain ⟨number⟩ := other
          simp only [books, Books.count, Registry.ids_add, List.mem_append,
            List.mem_singleton, DocumentId.mk.injEq]
          by_cases here : number = session.nextId
          · simp [here, fresh]
          · have still : number < session.nextId + 1 ↔ number < session.nextId := by
              omega
            simp [here, still]
      all_goals rfl

theorem unregister_books (session : Session) (coherent : Coherent debts session)
    (present : session.dropped = false) (id : DocumentId) :
    (session.unregister id).2.books =
      session.books.post (-.ofNat ([id].countP session.hasTimer)) 0 := by
  unfold unregister
  split
  case isTrue tracked =>
      have released := releaseAll_books [id] coherent present (List.nodup_singleton id)
      exact released (by simpa using tracked)
  case isFalse untracked =>
      have absent := Registry.not_contains_iff.mp (Bool.eq_false_iff.mpr untracked)
      simp [hasTimer, absent]

theorem sweep_books (session : Session) (coherent : Coherent debts session)
    (present : session.dropped = false) :
    session.sweep.2.books =
      session.books.post (-.ofNat (session.droppedIds.countP session.hasTimer)) 0 := by
  refine releaseAll_books session.droppedIds coherent present ?_ ?_
  · exact coherent.ids.sublist session.droppedIds_sublist
  · intro id member
    exact contains_of_mem_ids (session.droppedIds_sublist.subset member)

theorem shutdown_books (session : Session) (coherent : Coherent debts session)
    (present : session.dropped = false) :
    session.shutdown.2.books =
      session.books.post (-.ofNat (session.registry.ids.countP session.hasTimer)) 0 := by
  rw [shutdown_eq]
  refine releaseAll_books session.registry.ids coherent present coherent.ids ?_
  exact fun id member => Registry.contains_iff.mpr (Registry.mem_ids_iff.mp member)

/-- What is carried out at once may release documents and does nothing else to
the books. -/
theorem performAtOnce?_books {action : Action} {result : Answer × Session}
    (coherent : Coherent debts session) (present : session.dropped = false)
    (performed : session.performAtOnce? action = some result)
    (presentAfter : result.2.dropped = false) :
    result.2.books =
      session.books.post (-.ofNat ((session.releases action).countP session.hasTimer))
        0 := by
  have same : session.books =
      session.books.post (-.ofNat (([] : List DocumentId).countP session.hasTimer)) 0 := by
    simp
  cases action with
  | replace source text | append source text =>
      cases performed
      unfold rewriteSource
      split <;> exact same
  | release source =>
      cases performed
      unfold releaseSource
      split <;> exact same
  | register source =>
      cases performed
      exact (register_books session coherent source).trans same
  | unregister id =>
      cases performed
      exact unregister_books session coherent present id
  | sweep =>
      cases performed
      exact sweep_books session coherent present
  | shutdown =>
      cases performed
      exact shutdown_books session coherent present
  | info | contains | settings | clearCache | describe =>
      cases performed
      exact same
  | dropScheduler =>
      cases performed
      dsimp only at presentAfter ⊢
      split
      case isTrue held =>
          rw [if_pos held] at presentAfter
          exact (giveUp_books session presentAfter).trans same
      case isFalse => exact same
  | edit | startNow | reconfigure => cases performed

end Session

end LogTint
