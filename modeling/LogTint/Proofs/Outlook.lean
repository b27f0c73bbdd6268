import LogTint.Proofs.StillActions

/-!
# What a session is about to do

Between the beginning of a step and the rest after it, a session has yet to edit
some documents, to let runs go on to their end and to tell the host of documents
that it found closed.  The outlook of a document is its strand after all that.
Every move keeps it.
-/

namespace LogTint

namespace Tracked

theorem dormant_rested (tracked : Tracked) : tracked.rested.Dormant := nofun

end Tracked

namespace Strand

variable {strand : Strand} {tracked : Tracked} {work : Work} {ending : Ending}

/-- The host is told so many times that the document is closed. -/
def toldClosed (strand : Strand) (times : Nat) : Strand :=
  { strand with
    events := strand.events ++ List.replicate times (strand.clock, .closed strand.id) }

@[simp] theorem toldClosed_zero (strand : Strand) : strand.toldClosed 0 = strand := by
  simp [toldClosed]

theorem endingOf?_of_sleeping (asleep : work.phase.isSleeping = true)
    (strand : Strand) (tracked : Tracked) : strand.endingOf? tracked work = none := by
  unfold endingOf?
  cases phase : work.phase <;> simp_all [Phase.isSleeping]

theorem finish_of_dormant
    (dormant : ∀ tracked, strand.tracked? = some tracked → tracked.Dormant) :
    strand.finish = strand := by
  unfold finish
  cases known : strand.tracked? with
  | none => rfl
  | some tracked =>
      cases underWay : tracked.work? with
      | none => simp [underWay]
      | some work =>
          simp [underWay, endingOf?_of_sleeping (dormant tracked known work underWay)]

theorem awaited?_of_dormant
    (dormant : ∀ tracked, strand.tracked? = some tracked → tracked.Dormant) :
    strand.awaited? = none := by
  unfold awaited?
  cases known : strand.tracked? with
  | none => rfl
  | some tracked =>
      cases underWay : tracked.work? with
      | none => simp [underWay]
      | some work =>
          simp [underWay, endingOf?_of_sleeping (dormant tracked known work underWay)]

theorem finish_eq (known : strand.tracked? = some tracked)
    (underWay : tracked.work? = some work)
    (ends : strand.endingOf? tracked work = some ending) :
    strand.finish = strand.conclude tracked work.origin ending := by
  rw [finish, known]
  dsimp only
  rw [underWay]
  dsimp only
  rw [ends]

theorem awaited?_eq (known : strand.tracked? = some tracked)
    (underWay : tracked.work? = some work)
    (ends : strand.endingOf? tracked work = some ending) :
    strand.awaited? =
      if work.origin = .call true then some (ending.answer strand.id) else none := by
  rw [awaited?, known]
  dsimp only
  rw [underWay]
  dsimp only
  rw [ends, Option.map_some]

theorem conclude_eq (strand : Strand) (tracked : Tracked) (origin : Origin)
    (ending : Ending) :
    strand.conclude tracked origin ending =
      { strand with
        tracked? := ending.leaves tracked
        events := strand.events ++
          (ending.event strand.id :: if origin = .call false then
            [.returned strand.id (ending.answer strand.id)] else []).map
              (strand.clock, ·) } := by
  unfold conclude reply tell
  rcases origin with _ | awaited
  · rfl
  · cases awaited <;> simp

/-- An edit leaves nothing but a timer under way. -/
theorem edit_dormant (dormant : ∀ tracked, strand.tracked? = some tracked →
      tracked.Dormant) (tracked : Tracked)
    (known : strand.edit.2.tracked? = some tracked) : tracked.Dormant := by
  cases before : strand.tracked? with
  | none =>
      rw [edit_unknown before] at known
      exact dormant tracked known
  | some other =>
      cases living : strand.living? other.source with
      | none =>
          rw [edit_gone before living] at known
          cases known
      | some document =>
          rw [edit_living before living] at known
          cases known
          intro work underWay
          rw [show ∀ work?, (other.renewed work?).work? = work? from fun _ => rfl]
            at underWay
          split at underWay
          · cases underWay
          · cases underWay
            rfl

theorem awaited?_toldClosed (strand : Strand) (times : Nat) :
    (strand.toldClosed times).awaited? = strand.awaited? := rfl

theorem toldClosed_toldClosed (strand : Strand) (first second : Nat) :
    (strand.toldClosed first).toldClosed second = strand.toldClosed (first + second) := by
  rw [toldClosed, toldClosed, toldClosed, List.append_assoc, List.replicate_append_replicate]

/-- An edit changes what is tracked of the document, and the host is told if it
finds the document closed. -/
theorem edit_eq (strand : Strand) :
    strand.edit.2 =
      { strand with tracked? := strand.edit.2.tracked? }.toldClosed
        (if strand.tracked?.isSome && strand.edit.2.tracked?.isNone then 1 else 0) := by
  cases before : strand.tracked? with
  | none =>
      rw [edit_unknown before]
      exact (toldClosed_zero strand).symm
  | some tracked =>
      cases living : strand.living? tracked.source with
      | none =>
          rw [edit_gone before living]
          rfl
      | some document =>
          rw [edit_living before living]
          exact (toldClosed_zero _).symm

theorem edit_untracked (untracked : strand.tracked? = none) :
    strand.edit.2.tracked? = none := by
  rw [edit_unknown untracked]
  exact untracked

end Strand

namespace Frame

/-- Whether a frame belongs to an action on one document. -/
def isSingle : Frame → Bool
  | .host | .call => true
  | _ => false

end Frame

namespace Session

variable {documents : DocumentId → Option Tracked} {session : Session} {id : DocumentId}

/-- Nothing is left to do before the clock moves. -/
structure AtRest (documents : DocumentId → Option Tracked) (session : Session) : Prop
    where
  shows : session.Shows documents 0
  asleep : Asleep documents
  idle : session.control = .idle
  notices : session.notices = []

/-- Between two moves, no document acts, and settings have changed only while
nothing was under way but timers. -/
structure Orderly (documents : DocumentId → Option Tracked) (session : Session) : Prop
    where
  shows : session.Shows documents (session.control.frames.countP (· = Frame.call))
  plain : ∀ frame ∈ session.control.frames, frame.isPlain = true
  answering : ∀ action frames, session.control ≠ .perform action frames
  notices : ∀ notice ∈ session.notices, notice.ahead = [] ∧ documents notice.id = none
  distinct : session.debts.edits.Nodup
  editing : session.debts.edits ≠ [] → Asleep documents ∧ session.held = true

/-- The strand of a document after what is left to do. -/
def outlook (session : Session) (documents : DocumentId → Option Tracked)
    (id : DocumentId) : Strand :=
  (if id ∈ session.debts.edits then (session.strand documents id).edit.2
    else session.strand documents id).finish.toldClosed
      (session.notices.countP (·.id = id))

/-- The session carries out a step of one document. -/
def Single (documents : DocumentId → Option Tracked) (id : DocumentId)
    (session : Session) : Prop :=
  (∀ frame ∈ session.control.frames, frame.isSingle = true) ∧
    ∀ other, other ≠ id → (session.strand documents other).awaited? = none

/-- What the host is answered once the frames are gone. -/
def spoken (session : Session) : Answer :=
  match session.control with
  | .answer answer frames => if .host ∈ frames then answer else session.answer
  | _ => session.answer

/-- What the host is going to be answered. -/
def prospect (session : Session) (documents : DocumentId → Option Tracked)
    (id : DocumentId) : Answer :=
  (session.strand documents id).awaited?.getD session.spoken

/-- A move that keeps order and outlook and uses up some of the work. -/
structure Advances (documents : DocumentId → Option Tracked)
    (after : DocumentId → Option Tracked) (session final : Session) : Prop where
  orderly : Orderly after final
  workload : final.workload < session.workload
  outlook : ∀ id, final.outlook after id = session.outlook documents id
  prospect : ∀ id, Single documents id session →
    Single after id final ∧ final.prospect after id = session.prospect documents id

/-- A session that is idle and has no notices to send is in order. -/
theorem Shows.orderly (shows : session.Shows documents 0) (idle : session.control = .idle)
    (noNotices : session.notices = []) : Orderly documents session := by
  have noDebts : session.debts = ⟨[], [], []⟩ := by rw [debts, idle]; rfl
  exact {
    shows := by simpa [idle, Control.frames] using shows
    plain := by simp [idle, Control.frames]
    answering := by simp [idle]
    notices := by simp [noNotices]
    distinct := by simp [noDebts]
    editing := by simp [noDebts] }

theorem outlook_of_idle (idle : session.control = .idle) (noNotices : session.notices = [])
    (documents : DocumentId → Option Tracked) (id : DocumentId) :
    session.outlook documents id = (session.strand documents id).finish := by
  have noDebts : session.debts.edits = [] := by rw [debts, idle]; rfl
  rw [outlook, noDebts, if_neg List.not_mem_nil, noNotices, List.countP_nil,
    Strand.toldClosed_zero]

namespace AtRest

theorem orderly (rest : AtRest documents session) : Orderly documents session :=
  rest.shows.orderly rest.idle rest.notices

theorem outlook (rest : AtRest documents session) (id : DocumentId) :
    session.outlook documents id = session.strand documents id := by
  rw [outlook_of_idle rest.idle rest.notices, Strand.finish_of_dormant (rest.asleep id)]

theorem prospect (rest : AtRest documents session) (id : DocumentId) :
    session.prospect documents id = session.answer := by
  rw [Session.prospect, Strand.awaited?_of_dormant (rest.asleep id), spoken, rest.idle]
  rfl

end AtRest

end Session

end LogTint
