import LogTint.Proofs.Histories
import LogTint.Proofs.Workers

/-!
# The books of a session

Counters, registry, notices, log and runs keep each other in balance.  `Books`
holds the differences between what was counted and what can be seen; an
operation leaves them as they are, except that it may order runs, cancel them
and answer edits.
-/

namespace LogTint

/-- What was counted, less what can be seen. -/
@[ext] structure Books where
  active : UInt64
  registered : UInt64
  published : UInt64
  oversized : UInt64
  errors : UInt64
  closings : UInt64
  /-- Whether a document has left the registry, and how often the host was told
  or is going to be told of it. -/
  closed : DocumentId → Int
  /-- Runs that ended in some way and runs that have not ended. -/
  runs : UInt64
  /-- Edits that did not bypass their document. -/
  edits : UInt64

namespace Books

/-- Runs are ordered or cancelled, and edits are answered. -/
def post (books : Books) (runs edits : UInt64) : Books :=
  { books with runs := books.runs + runs, edits := books.edits + edits }

@[simp] theorem post_post (books : Books) (runs edits moreRuns moreEdits : UInt64) :
    (books.post runs edits).post moreRuns moreEdits =
      books.post (runs + moreRuns) (edits + moreEdits) := by
  simp [post, UInt64.add_assoc]

@[simp] theorem post_zero (books : Books) : books.post 0 0 = books := by
  simp [post]

/-- A run that was counted as ended is gone. -/
@[simp] theorem post_one_neg_one (books : Books) : (books.post 1 0).post (-1) 0 = books := by
  rw [post_post]
  exact post_zero books

/-- The books after an occurrence was counted. -/
def count (books : Books) : Occurrence → Books
  | .documentRegistered =>
      { books with active := books.active + 1, registered := books.registered + 1 }
  | .documentClosed =>
      { books with active := books.active - 1, closings := books.closings + 1 }
  | .edit => books.post 0 1
  | .bypassed => books.post 0 (-1)
  | .superseded | .discarded => books.post 1 0
  | .published => { books.post 1 0 with published := books.published + 1 }
  | .oversized => { books.post 1 0 with oversized := books.oversized + 1 }
  | .computeError => { books.post 1 0 with errors := books.errors + 1 }
  | .cacheHit | .cacheMiss | .computed _ => books

/-- The books after the host was told of something. -/
def note (books : Books) : Event → Books
  | .highlights _ _ => { books with published := books.published - 1 }
  | .bypass _ _ => { books with oversized := books.oversized - 1 }
  | .error _ _ => { books with errors := books.errors - 1 }
  | .closed id =>
      { books with
        closings := books.closings - 1
        closed := fun other => books.closed other + if other = id then 1 else 0 }
  | .acted _ _ | .returned _ _ => books

/-- The books after a tracked document left the registry. -/
def leave (books : Books) (id : DocumentId) : Books :=
  { books with
    active := books.active + 1
    closed := fun other => books.closed other - if other = id then 1 else 0 }

/-- A document that leaves is counted as closed, and the host is told. -/
@[simp] theorem leave_count_note (books : Books) (id : DocumentId) :
    ((books.leave id).count .documentClosed).note (.closed id) = books := by
  simp [leave, count, note]

@[simp] theorem count_note_highlights (books : Books) (id : DocumentId)
    (publication : Publication) :
    (books.count .published).note (.highlights id publication) = books.post 1 0 := by
  simp [count, note, post]

@[simp] theorem count_note_bypass (books : Books) (id : DocumentId) (chars : Nat) :
    (books.count .oversized).note (.bypass id chars) = books.post 1 0 := by
  simp [count, note, post]

@[simp] theorem count_note_error (books : Books) (id : DocumentId)
    (error : HighlightError) :
    (books.count .computeError).note (.error id error) = books.post 1 0 := by
  simp [count, note, post]

end Books

namespace Event

def isHighlights : Event → Bool
  | .highlights _ _ => true
  | _ => false

def isBypass : Event → Bool
  | .bypass _ _ => true
  | _ => false

def isError : Event → Bool
  | .error _ _ => true
  | _ => false

def isClosed : Event → Bool
  | .closed _ => true
  | _ => false

end Event

/-- Number of events of a kind in a log. -/
def told (log : List (Nat × Event)) (kind : Event → Bool) : Nat :=
  log.countP fun noted => kind noted.2

theorem told_append (log : List (Nat × Event)) (time : Nat) (event : Event)
    (kind : Event → Bool) :
    told (log ++ [(time, event)]) kind = told log kind + if kind event then 1 else 0 := by
  simp [told, List.countP_append, List.countP_cons]

/-- Number of runs that the counters know to have ended. -/
def Metrics.ended (metrics : Metrics) : UInt64 :=
  metrics.superseded + metrics.published + metrics.discarded + metrics.oversized +
    metrics.errors

theorem Run.Distinct.length_filter_is {runs : List Run} (distinct : Run.Distinct runs)
    (run : Run) :
    (runs.filter (!·.is run.id run.generation)).length +
      (if run.key ∈ runs.map Run.key then 1 else 0) = runs.length := by
  have occurs : runs.countP (·.is run.id run.generation) =
      if run.key ∈ runs.map Run.key then 1 else 0 := by
    rw [← distinct.count, List.count, List.countP_map]
    refine List.countP_congr fun other _ => ?_
    rw [Run.is_iff]
    exact beq_iff_eq.symm
  rw [← occurs, ← List.countP_eq_length_filter, Nat.add_comm]
  have split : runs.length = runs.countP (·.is run.id run.generation) +
      runs.countP (fun other => ¬other.is run.id run.generation = true) :=
    List.length_eq_countP_add_countP _
  simpa using split.symm

namespace Session

def books (session : Session) : Books where
  active := session.metrics.active - .ofNat session.registry.ids.length
  registered := session.metrics.registered - .ofNat session.nextId
  published := session.metrics.published - .ofNat (told session.log Event.isHighlights)
  oversized := session.metrics.oversized - .ofNat (told session.log Event.isBypass)
  errors := session.metrics.errors - .ofNat (told session.log Event.isError)
  closings :=
    session.metrics.registered - session.metrics.active -
      .ofNat (told session.log Event.isClosed + session.notices.length)
  closed id :=
    told session.log (· = .closed id) + session.notices.countP (·.id = id) +
      (if id ∈ session.registry.ids then 1 else 0) -
      if id.number < session.nextId then 1 else 0
  runs := session.metrics.ended + .ofNat session.runs.length
  edits := session.metrics.edits - session.metrics.bypassed

variable {session : Session} {run : Run} {id : DocumentId}

theorem books_count (session : Session) (occurrence : Occurrence) :
    (session.count occurrence).books = session.books.count occurrence := by
  cases occurrence <;> apply Books.ext <;>
    simp only [books, Books.count, Books.post, count, Metrics.record, Metrics.ended] <;>
    grind

theorem books_note (session : Session) (event : Event) :
    (session.note event).books = session.books.note event := by
  cases event <;> apply Books.ext <;>
    simp only [books, Books.note, note, told_append, Event.isHighlights, Event.isBypass,
      Event.isError, Event.isClosed, UInt64.ofNat_add] <;>
    grind

/-- The books do not depend on what the entries and the runs look like. -/
theorem books_of_ids {registry : Registry} (ids : registry.ids = session.registry.ids)
    (runs : List Run) :
    books { session with registry, runs } =
      session.books.post (.ofNat runs.length - .ofNat session.runs.length) 0 := by
  apply Books.ext
  case runs =>
      simp only [books, Books.post]
      grind
  all_goals simp [books, Books.post, ids]

theorem books_of_runs (runs : List Run) :
    books { session with runs } =
      session.books.post (.ofNat runs.length - .ofNat session.runs.length) 0 :=
  books_of_ids rfl runs

theorem books_of_erase (session : Session) (distinct : session.registry.ids.Nodup)
    (tracked : session.registry.contains id = true) :
    books { session with registry := session.registry.erase id } =
      session.books.leave id := by
  have member := Registry.mem_ids_iff.mpr (Registry.contains_iff.mp tracked)
  have erased : (session.registry.erase id).ids = session.registry.ids.erase id := by
    rw [distinct.erase_eq_filter]
    simp [Registry.ids, Registry.erase, List.filter_map, Function.comp_def, bne,
      beq_eq_decide]
  have length := List.length_erase_add_one member
  apply Books.ext
  case active =>
      simp only [books, Books.leave, erased, ← length, UInt64.ofNat_add]
      grind
  case closed =>
      funext other
      simp only [books, Books.leave, erased, distinct.mem_erase_iff]
      by_cases here : other = id
      · simp [here, member]
        omega
      · simp [here]
  all_goals simp [books, Books.leave]

/-! ## Runs -/

theorem enterPhase_books (session : Session) (distinct : Run.Distinct session.runs)
    (member : run ∈ session.runs) (phase : Phase) :
    (session.enterPhase run phase).books = session.books := by
  have length := distinct.length_filter_is run
  rw [if_pos (List.mem_map_of_mem member)] at length
  refine (books_of_runs _).trans ?_
  rw [List.length_append, List.length_singleton, length]
  simp

theorem passLock_books (session : Session) (distinct : Run.Distinct session.runs)
    (id : DocumentId) : (session.passLock id).books = session.books := by
  unfold passLock
  split
  case h_1 found =>
      exact enterPhase_books session distinct (List.mem_of_find?_eq_some found) _
  case h_2 => rfl

theorem withoutRun_books (session : Session) (distinct : Run.Distinct session.runs)
    (member : run ∈ session.runs) :
    (session.withoutRun run).books = session.books.post (-1) 0 := by
  have length := distinct.length_filter_is run
  rw [if_pos (List.mem_map_of_mem member)] at length
  refine (books_of_runs _).trans ?_
  rw [← length, UInt64.ofNat_add]
  congr 1
  grind

/-- A run that goes without being counted is missing. -/
theorem removeRun_books (session : Session) (distinct : Run.Distinct session.runs)
    (member : run ∈ session.runs) :
    (session.removeRun run).books = session.books.post (-1) 0 := by
  rw [← withoutRun_books session distinct member]
  unfold removeRun
  dsimp only
  split
  · exact passLock_books _ (Run.kept_filter distinct run).distinct run.id
  · rfl

theorem modifyEntry_books (session : Session) (id : DocumentId) (change : Entry → Entry)
    (keeps : ∀ entry, (change entry).id = entry.id) :
    (session.modifyEntry id change).books = session.books := by
  refine (books_of_ids (Registry.ids_modify keeps _ id) _).trans ?_
  simp

theorem cancelArmed_cases (session : Session) (id : DocumentId) :
    (∃ registry, registry.ids = session.registry.ids ∧
      session.cancelArmed id = (false, { session with registry })) ∨
    ∃ run ∈ session.runs, session.cancelArmed id =
      (true, (session.modifyEntry id Entry.disarmed).removeRun run) := by
  have ids := Registry.ids_modify (fun _ => rfl : ∀ entry, (Entry.disarmed entry).id = entry.id)
    session.registry id
  unfold cancelArmed
  split
  case h_1 => exact .inl ⟨session.registry, rfl, rfl⟩
  case h_2 generation armed =>
      dsimp only
      split
      case h_1 => exact .inl ⟨_, ids, rfl⟩
      case h_2 run found => exact .inr ⟨run, findRun?_mem found, rfl⟩

theorem cancelArmed_books (session : Session) (distinct : Run.Distinct session.runs)
    (id : DocumentId) :
    (session.cancelArmed id).2.books =
      session.books.post (if (session.cancelArmed id).1 then -1 else 0) 0 := by
  rcases cancelArmed_cases session id with ⟨registry, ids, same⟩ | ⟨run, member, same⟩
  · rw [same]
    exact (books_of_ids ids _).trans (by simp)
  · have disarmed := session.modifyEntry_books id Entry.disarmed fun _ => rfl
    have removed :=
      removeRun_books (session.modifyEntry id Entry.disarmed) distinct member
    rw [same, removed, disarmed, if_pos rfl]

/-- An edit that takes the place of another counts the run that it cancels. -/
theorem supersede_books (session : Session) (distinct : Run.Distinct session.runs)
    (id : DocumentId) : (session.supersede id).books = session.books := by
  let next (entry : Entry) : Entry := { entry with generation := entry.generation + 1 }
  have bumped := session.modifyEntry_books id next fun _ => rfl
  have cancelled := cancelArmed_books (session.modifyEntry id next) distinct id
  rw [bumped] at cancelled
  unfold supersede
  dsimp only
  split
  case isTrue armed =>
      rw [books_count, cancelled, if_pos armed, Books.count, Books.post_post]
      exact Books.post_zero _
  case isFalse unarmed =>
      rw [cancelled, if_neg unarmed, Books.post_zero]

theorem setState_books (session : Session) (id : DocumentId) (state : DocumentState) :
    (session.setState id state).books = session.books := by
  apply modifyEntry_books
  intro entry
  split <;> rfl

theorem advanceState?_books {advanced : Session} {before after : DocumentState}
    (advance : session.advanceState? run before after = some advanced) :
    advanced.books = session.books := by
  obtain ⟨_, _, _, _, _, edited, rfl⟩ := advanceState?_spec advance
  refine (books_of_ids edited.ids _).trans ?_
  simp

theorem advanceState?_getD_books (session : Session) (run : Run)
    (before after : DocumentState) :
    ((session.advanceState? run before after).getD session).books = session.books := by
  cases advance : session.advanceState? run before after with
  | none => rfl
  | some advanced => exact advanceState?_books advance

/-! ## Documents that leave -/

theorem release_books (session : Session) (ids : session.registry.ids.Nodup)
    (distinct : Run.Distinct session.runs)
    (tracked : session.registry.contains id = true) :
    (session.release id).books =
      ((session.books.post (if (session.cancelArmed id).1 then -1 else 0) 0).leave
        id).count .documentClosed := by
  obtain ⟨registry, runs, edited, _, cancelled⟩ := cancelArmed_spec session distinct id
  have books := cancelArmed_books session distinct id
  have trackedLater : registry.contains id = true := by
    rw [Registry.contains_iff, ← Registry.mem_ids_iff, edited.ids,
      Registry.mem_ids_iff, ← Registry.contains_iff]
    exact tracked
  rw [release, if_pos tracked, books_count, ← books, cancelled]
  exact congrArg (Books.count · .documentClosed)
    (books_of_erase { session with registry, runs } (edited.ids ▸ ids) trackedLater)

theorem releaseAndTell_books (session : Session) (ids : session.registry.ids.Nodup)
    (distinct : Run.Distinct session.runs)
    (tracked : session.registry.contains id = true) :
    (session.releaseAndTell id).books =
      session.books.post (if (session.cancelArmed id).1 then -1 else 0) 0 := by
  rw [releaseAndTell, books_note, release_books session ids distinct tracked,
    Books.leave_count_note]

theorem sendNotice_books (session : Session) (id : DocumentId) :
    (session.sendNotice id).books = session.books.note (.closed id) := by
  apply Books.ext
  case closings =>
      simp only [books, Books.note, sendNotice, List.length_append, List.length_singleton,
        UInt64.ofNat_add]
      grind
  case closed =>
      funext other
      simp only [books, Books.note, sendNotice, List.countP_append, List.countP_singleton]
      grind
  all_goals rfl

theorem release_sendNotice_books (session : Session) (ids : session.registry.ids.Nodup)
    (distinct : Run.Distinct session.runs)
    (tracked : session.registry.contains id = true) :
    ((session.release id).sendNotice id).books =
      session.books.post (if (session.cancelArmed id).1 then -1 else 0) 0 := by
  rw [sendNotice_books, release_books session ids distinct tracked,
    Books.leave_count_note]

theorem tell_books (session : Session) {notice : Notice}
    (member : notice ∈ session.notices) :
    (note { session with notices := session.notices.erase notice }
      (.closed notice.id)).books = session.books := by
  have split := List.perm_cons_erase member
  rw [books_note]
  apply Books.ext
  case closings =>
      simp only [books, Books.note, split.length_eq, List.length_cons, ← Nat.add_assoc,
        UInt64.ofNat_add]
      grind
  case closed =>
      funext other
      simp only [books, Books.note, split.countP_eq, List.countP_cons]
      grind
  all_goals rfl

theorem closeDropped_books (session : Session) (ids : session.registry.ids.Nodup)
    (run : Run) : (session.closeDropped run).books = session.books.post 1 0 := by
  unfold closeDropped
  dsimp only
  split
  case isTrue tracked =>
      rw [books_note, books_count, books_of_erase (session.count .discarded) ids tracked,
        Books.leave_count_note]
      exact books_count session .discarded
  case isFalse => exact books_count session .discarded

/-! ## Runs that end -/

theorem endCall_books (session : Session) (present : session.endCall.dropped = false) :
    session.endCall.books = session.books := by
  unfold endCall at present ⊢
  dsimp only at present ⊢
  split
  case isTrue gone =>
      rw [if_pos gone] at present
      cases present
  case isFalse => rfl

theorem giveUp_books (session : Session) (present : session.giveUp.dropped = false) :
    session.giveUp.books = session.books := by
  unfold giveUp at present ⊢
  dsimp only at present ⊢
  split
  case isTrue gone =>
      rw [if_pos gone] at present
      cases present
  case isFalse => rfl

theorem reply_books (session : Session) (origin : Origin) (id : DocumentId)
    (result : Answer) (present : (session.reply origin id result).dropped = false) :
    (session.reply origin id result).books = session.books := by
  match origin with
  | .timer => rfl
  | .call true => exact endCall_books _ present
  | .call false =>
      refine (endCall_books _ present).trans ?_
      exact books_note session (.returned id result)

theorem finish_books (session : Session) (distinct : Run.Distinct session.runs)
    (member : run ∈ session.runs) (result : Answer)
    (present : (session.finish run result).dropped = false) :
    (session.finish run result).books = session.books.post (-1) 0 := by
  refine (reply_books _ _ _ _ present).trans ?_
  exact removeRun_books session distinct member

section Ending

variable (session)
variable (distinct : Run.Distinct session.runs) (member : run ∈ session.runs)
include distinct member

theorem finishStale_books (present : (session.finishStale run).dropped = false) :
    (session.finishStale run).books = session.books := by
  refine (finish_books (session.count .discarded) distinct member _ present).trans ?_
  rw [books_count, Books.count, Books.post_one_neg_one]

theorem finishDropped_books (ids : session.registry.ids.Nodup)
    (present : (session.finishDropped run).dropped = false) :
    (session.finishDropped run).books = session.books := by
  have closed := closeDropped_books session ids run
  obtain ⟨_, _, _, _, _, dropped⟩ := closeDropped_spec session run
  have sameRuns : (session.closeDropped run).runs = session.runs := by rw [dropped]
  refine (finish_books (session.closeDropped run) (sameRuns ▸ distinct)
    (sameRuns ▸ member) _ present).trans ?_
  rw [closed, Books.post_one_neg_one]

/-- A run that is counted and of which the host is told goes without a trace,
whether or not it moved its document on. -/
theorem settle_finish_books {occurrence : Occurrence} {event : Event}
    (ends : ∀ books : Books, (books.count occurrence).note event = books.post 1 0)
    (result : Answer)
    (present : (((((session.advanceState? run .computing .idle).getD session).count
      occurrence).note event).finish run result).dropped = false) :
    (((((session.advanceState? run .computing .idle).getD session).count
      occurrence).note event).finish run result).books = session.books := by
  have sameRuns := advanceState?_getD_runs session run .computing .idle
  have books := advanceState?_getD_books session run .computing .idle
  refine (finish_books _ (sameRuns ▸ distinct) (sameRuns ▸ member) _ present).trans ?_
  rw [books_note, books_count, ends, Books.post_one_neg_one, books]

theorem finishOversized_books (chars : Nat)
    (present : (session.finishOversized run chars).dropped = false) :
    (session.finishOversized run chars).books = session.books :=
  settle_finish_books session distinct member (Books.count_note_bypass · _ _) _ present

theorem finishFailed_books (reason : String)
    (present : (session.finishFailed run reason).dropped = false) :
    (session.finishFailed run reason).books = session.books :=
  settle_finish_books session distinct member (Books.count_note_error · _ _) _ present

end Ending

/-! ## Runs that go on -/

theorem takeSnapshot_eq (session : Session) (run : Run) : ∃ text : Text,
    (text = [] ∨ ∃ document, session.sources[run.source]? = some document ∧
      text = document.text) ∧
    session.takeSnapshot run =
      if text.exceeds run.config.maxChars then
        (session.modifySource run.source Source.endReading).finishOversized run
          text.length
      else
        (session.modifySource run.source Source.endReading).enterPhase run
          (.computing text) := by
  unfold takeSnapshot
  cases session.sources[run.source]? with
  | none => exact ⟨[], .inl rfl, rfl⟩
  | some document => exact ⟨document.text, .inr ⟨document, rfl, rfl⟩, rfl⟩

theorem takeSnapshot_books (session : Session) (distinct : Run.Distinct session.runs)
    (member : run ∈ session.runs)
    (present : (session.takeSnapshot run).dropped = false) :
    (session.takeSnapshot run).books = session.books := by
  let returned := session.modifySource run.source Source.endReading
  have same : returned.books = session.books := rfl
  obtain ⟨text, _, taken⟩ := takeSnapshot_eq session run
  rw [taken] at present ⊢
  split
  case isTrue above =>
      rw [if_pos above] at present
      exact (finishOversized_books returned distinct member _ present).trans same
  case isFalse => exact (enterPhase_books returned distinct member _).trans same

/-- A run whose edit is still the latest reads its document. -/
theorem readSource_books {advanced : Session} (debts : Debts)
    (coherent : Coherent debts session) (member : run ∈ session.runs)
    (ready : run.phase = .due ∨ run.phase = .granted)
    (advance : session.advanceState? run .pending .computing = some advanced)
    (alive : advanced.isAlive run.source = true) (frames : List Frame)
    (present : (advanced.readSource run frames).dropped = false) :
    (advanced.readSource run frames).books = session.books := by
  unfold readSource at present ⊢
  cases source : advanced.sources[run.source]? with
  | none =>
      rw [isAlive, source] at alive
      cases alive
  | some document =>
      have started := startReading_inner debts member ready advance source alive
      have begun := coherent.ofEffects started.effects
      have reading := (begun.texts _ List.mem_cons_self).1
      have sameRuns : advanced.runs = session.runs := by
        have runs := advanceState?_getD_runs session run .pending .computing
        rwa [advance] at runs
      have before : advanced.books = session.books := advanceState?_books advance
      have books := (enterPhase_books
        (advanced.modifySource run.source fun _ => document.beginSnapshot.2)
        (sameRuns ▸ coherent.distinct) (sameRuns ▸ member) .reading).trans before
      simp only [source] at present ⊢
      split
      case isTrue quiet =>
          rw [if_pos quiet] at present
          exact (takeSnapshot_books _ begun.distinct reading present).trans books
      case isFalse => exact books

theorem beginWork_books (debts : Debts) (coherent : Coherent debts session)
    (member : run ∈ session.runs) (ready : run.phase = .due ∨ run.phase = .granted)
    (frames : List Frame)
    (present : (session.beginWork run frames).dropped = false) :
    (session.beginWork run frames).books = session.books := by
  unfold beginWork at present ⊢
  cases advance : session.advanceState? run .pending .computing with
  | none =>
      simp only [advance] at present ⊢
      exact finishStale_books session coherent.distinct member present
  | some advanced =>
      simp only [advance] at present ⊢
      split
      case isFalse dead =>
          rw [if_neg dead] at present
          have gone : advanced.finishDropped run = session.finishDropped run :=
            congrArg (finish · run _) (closeDropped_of_advance advance)
          rw [gone] at present ⊢
          exact finishDropped_books session coherent.distinct member coherent.ids present
      case isTrue alive =>
          rw [if_pos alive] at present
          exact readSource_books debts coherent member ready advance alive frames present

theorem requestLock_books (debts : Debts) (coherent : Coherent debts session)
    (member : run ∈ session.runs) (due : run.phase = .due) (frames : List Frame)
    (present : (session.requestLock run frames).dropped = false) :
    (session.requestLock run frames).books = session.books := by
  unfold requestLock at present ⊢
  split
  case isTrue => exact enterPhase_books session coherent.distinct member .waiting
  case isFalse free =>
      rw [if_neg free] at present
      exact beginWork_books debts coherent member (.inl due) frames present

theorem countLookup_books (session : Session) (lookup : Lookup) (nanoseconds : Nat) :
    (session.countLookup lookup nanoseconds).books = session.books := by
  cases lookup with
  | uncached => exact books_count session _
  | hit => exact books_count session _
  | miss => exact (books_count _ _).trans (books_count session _)

/-- A run that frees its lock and stands behind the others is still there. -/
theorem part_books (session : Session) (distinct : Run.Distinct session.runs)
    (member : run ∈ session.runs) (phase : Phase) :
    (((session.withoutRun run).passLock run.id).enterPhase run phase).books =
      session.books := by
  have kept := withoutRun_passLock_runs session distinct run
  have length := kept.distinct.length_filter_is run
  have absent : run.key ∉
      ((session.withoutRun run).passLock run.id).runs.map Run.key := by
    intro here
    obtain ⟨other, isLeft, same⟩ := List.mem_map.mp here
    exact kept.keeps_of_mem isLeft same
  rw [if_neg absent, Nat.add_zero] at length
  have joined (number : Nat) : UInt64.ofNat (number + 1) - .ofNat number = 1 := by
    grind [UInt64.ofNat_add]
  refine (books_of_runs _).trans ?_
  rw [List.length_append, List.length_singleton, length, joined,
    passLock_books _ (Run.kept_filter distinct run).distinct,
    withoutRun_books session distinct member, Books.post_post]
  exact Books.post_zero _

theorem complete_books (session : Session) (distinct : Run.Distinct session.runs)
    (member : run ∈ session.runs) (text : Text) :
    (session.complete run text).books = session.books := by
  obtain ⟨cache, looked⟩ := highlightText_eq session text run.config.highlight
  have result : session.complete run text =
      (((session.highlightText text run.config.highlight).2.withoutRun run).passLock
        run.id).enterPhase run (session.computedPhase run text) := rfl
  rw [result, looked]
  exact part_books { session with cache } distinct member _

theorem breakOff_books (session : Session) (distinct : Run.Distinct session.runs)
    (member : run ∈ session.runs) (reason : String) :
    (session.breakOff run reason).books = session.books :=
  part_books session distinct member (.failed reason)

theorem conclude_books (session : Session) (ids : session.registry.ids.Nodup)
    (distinct : Run.Distinct session.runs) (member : run ∈ session.runs) (text : Text)
    (highlights : Highlights) (lookup : Lookup) (nanoseconds : Nat)
    (present :
      (session.conclude run text highlights lookup nanoseconds).dropped = false) :
    (session.conclude run text highlights lookup nanoseconds).books = session.books := by
  have runs := session.countLookup_runs lookup nanoseconds
  have registry := session.countLookup_registry lookup nanoseconds
  rw [← session.countLookup_books lookup nanoseconds]
  rw [← runs] at distinct member
  rw [← registry] at ids
  unfold conclude at present ⊢
  generalize session.countLookup lookup nanoseconds = counted at ids distinct member present ⊢
  dsimp only at present ⊢
  split
  case isFalse dead =>
      rw [if_neg dead] at present
      exact finishDropped_books counted distinct member ids present
  case isTrue alive =>
      rw [if_pos alive] at present
      have settled := settle_finish_books counted distinct member
        (Books.count_note_highlights · run.id ⟨run.generation, text, highlights⟩)
        (.published (some ⟨run.generation, text, highlights⟩))
      cases advance : counted.advanceState? run .computing .idle with
      | none =>
          rw [advance] at present
          exact finishStale_books counted distinct member present
      | some advanced =>
          rw [advance] at present settled
          exact settled present

theorem poll_books (coherent : Coherent session.debts session)
    (member : run ∈ session.runs) (nanoseconds : Nat)
    (present : (session.poll run nanoseconds).dropped = false) :
    (session.poll run nanoseconds).books = session.books := by
  unfold poll at present ⊢
  cases phase : run.phase with
  | due =>
      rw [phase] at present
      exact requestLock_books _ coherent member phase [] present
  | granted =>
      rw [phase] at present
      exact beginWork_books _ coherent member (.inr phase) [] present
  | computed text highlights lookup =>
      rw [phase] at present
      exact conclude_books session coherent.ids coherent.distinct member text highlights
        lookup nanoseconds present
  | failed reason =>
      rw [phase] at present
      exact finishFailed_books session coherent.distinct member reason present
  | sleeping | waiting | reading | computing => rfl

end Session

end LogTint
