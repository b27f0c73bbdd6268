import LogTint.Proofs.CacheSound
import LogTint.Proofs.Operations
import LogTint.Proofs.Strand
import LogTint.Schedule.Settle
import Mathlib.Algebra.GroupWithZero.Nat
import Mathlib.Logic.Function.Basic

/-!
# Sessions whose documents do not act

When no document acts as it is read, an action is carried out without a break,
so that every document has at most one run and that run is for its latest edit.
Entries and runs can then be read off one map from documents to what is tracked
of them.  `Session.Shows` says that they can.
-/

namespace LogTint

namespace Source

variable {source : Source}

theorem beginLength_of_isQuiet (quiet : source.isQuiet = true) :
    source.beginLength.1 = [] ∧
      source.beginLength.2.endReading.unscripted = source.unscripted ∧
      source.beginLength.2.endReading.isQuiet = true := by
  obtain ⟨buffer, editable, rule, onSnapshot, onLength, held, readers⟩ := source
  cases onLength <;>
    simp_all [isQuiet, pendingActions, beginLength, endReading, unscripted]

theorem beginSnapshot_of_isQuiet (quiet : source.isQuiet = true) :
    source.beginSnapshot.1 = [] ∧
      source.beginSnapshot.2.endReading.unscripted = source.unscripted ∧
      source.beginSnapshot.2.endReading.isQuiet = true := by
  obtain ⟨buffer, editable, rule, onSnapshot, onLength, held, readers⟩ := source
  cases onSnapshot <;>
    simp_all [isQuiet, pendingActions, beginSnapshot, endReading, unscripted]

end Source

/-- Whether a frame can stand on the stack when no document acts. -/
def Frame.isPlain : Frame → Bool
  | .host | .call | .rearm _ _ _ => true
  | .acted _ | .actions _ | .measured _ _ | .snapshot _ => false

/-- The calls that a run with this origin keeps in progress. -/
def Origin.calls : Origin → Nat
  | .timer => 0
  | .call _ => 1

namespace Tracked

def state (tracked : Tracked) : DocumentState :=
  match tracked.work? with
  | none => .idle
  | some work => work.phase.state

/-- Generation of the run that later edits cancel. -/
def armed? (tracked : Tracked) : Option Nat :=
  match tracked.work? with
  | none => none
  | some work =>
      if work.origin = .timer ∧ work.phase.state = .pending then
        some tracked.generation
      else none

/-- The entry of a document in the registry. -/
def entry (held : Bool) (id : DocumentId) (tracked : Tracked) : Entry :=
  { id
    source := tracked.source
    state := if held then tracked.state else .closed
    generation := tracked.generation
    armed := tracked.armed? }

/-- The run for some work on a document. -/
def runOf (id : DocumentId) (tracked : Tracked) (work : Work) : Run :=
  { id
    generation := tracked.generation
    source := tracked.source
    config := work.config
    origin := work.origin
    phase := work.phase }

/-- The run of a document. -/
def run? (id : DocumentId) (tracked : Tracked) : Option Run :=
  tracked.work?.map (tracked.runOf id)

theorem id_of_mem_run? {id : DocumentId} {tracked? : Option Tracked} {run : Run}
    (member : run ∈ (tracked?.bind (Tracked.run? id)).toList) : run.id = id := by
  rw [Option.mem_toList] at member
  obtain ⟨tracked, _, isRun⟩ := Option.bind_eq_some_iff.mp member
  obtain ⟨work, _, same⟩ := Option.map_eq_some_iff.mp isRun
  rw [← same]
  rfl

end Tracked

/-- Nothing is under way for a document but a timer. -/
def Tracked.Dormant (tracked : Tracked) : Prop :=
  ∀ work, tracked.work? = some work → work.phase.isSleeping = true

/-- A run is in a phase that lasts from one move to the next: it does not wait
for a lock, and its timer is still to fire. -/
def Work.Fits (clock : Nat) (work : Work) : Prop :=
  match work.phase with
  | .sleeping deadline => clock < deadline ∧ work.origin = .timer
  | .due | .computing _ => True
  | .computed text highlights _ =>
      highlights = Highlights.compute text work.config.highlight
  | .waiting | .granted | .reading | .failed _ => False

/-- Only a timer sleeps. -/
theorem Work.Fits.timer {clock : Nat} {work : Work} (fits : work.Fits clock)
    (asleep : work.phase.isSleeping = true) :
    work.origin = .timer ∧ work.phase.state = .pending := by
  obtain ⟨config, origin, phase⟩ := work
  cases phase with
  | sleeping deadline => exact ⟨fits.2, rfl⟩
  | _ => cases asleep

namespace Session

/-- The session tracks the given documents, each with the run that it has.  So
many calls are in progress besides those that wait for a run. -/
structure Shows (documents : DocumentId → Option Tracked) (calls : Nat)
    (session : Session) : Prop where
  ids : session.registry.ids.Nodup
  entries : ∀ id, session.registry.find? id =
    (documents id).map (Tracked.entry session.held id)
  solitary : (session.runs.map Run.id).Nodup
  runs : ∀ run, run ∈ session.runs ↔
    (documents run.id).bind (Tracked.run? run.id) = some run
  known : ∀ {id tracked}, documents id = some tracked →
    id.number < session.nextId ∧ tracked.source < session.sources.length
  working : ∀ {id tracked work}, documents id = some tracked →
    tracked.work? = some work → session.held = true ∧ work.Fits session.clock
  quiet : ∀ source ∈ session.sources, source.isQuiet = true
  sound : ∀ cache, session.cache = some cache → cache.Sound
  debounce : 0 < session.settings.debounce
  dropped : session.dropped = !session.held
  calls : session.calls = calls + (session.runs.map (·.origin.calls)).sum

/-- The runs of the other documents. -/
def others (session : Session) (id : DocumentId) : List Run :=
  session.runs.filter (·.id ≠ id)

/-- Only the given document and its run change, and the host is told some news of
it. -/
structure Turns (id : DocumentId) (new? : Option Tracked) (news : List Event)
    (session final : Session) : Prop where
  ids : final.registry.ids.Nodup
  entries : ∀ other, final.registry.find? other =
    if other = id then new?.map (Tracked.entry session.held id)
    else session.registry.find? other
  runs : final.runs.Perm
    (session.others id ++ (new?.bind (Tracked.run? id)).toList)
  clock : final.clock = session.clock
  sources : final.sources.map Source.unscripted =
    session.sources.map Source.unscripted
  quiet : ∀ source ∈ final.sources, source.isQuiet = true
  settings : final.settings = session.settings
  nextId : final.nextId = session.nextId
  held : final.held = session.held
  dropped : final.dropped = session.dropped
  log : final.log = session.log ++ news.map (session.clock, ·)

namespace Shows

variable {documents : DocumentId → Option Tracked} {calls : Nat}
  {session final : Session} {id : DocumentId} {tracked : Tracked} {work : Work}

theorem find?_entry (shows : session.Shows documents calls)
    (known : documents id = some tracked) :
    session.registry.find? id = some (tracked.entry session.held id) := by
  rw [shows.entries, known, Option.map_some]

theorem contains (shows : session.Shows documents calls) (id : DocumentId) :
    session.registry.contains id = (documents id).isSome := by
  rw [Registry.contains, shows.entries, Option.isSome_map]

theorem mem_ids_iff (shows : session.Shows documents calls) (id : DocumentId) :
    id ∈ session.registry.ids ↔ (documents id).isSome = true := by
  rw [Registry.mem_ids_iff, shows.entries, ← Option.isSome_iff_exists, Option.isSome_map]

/-- A run that is there is the one of its document. -/
theorem exists_work (shows : session.Shows documents calls) {run : Run}
    (member : run ∈ session.runs) :
    ∃ tracked work, documents run.id = some tracked ∧ tracked.work? = some work ∧
      tracked.runOf run.id work = run := by
  have shown := (shows.runs run).mp member
  rw [Option.bind_eq_some_iff] at shown
  obtain ⟨tracked, known, isRun⟩ := shown
  rw [Tracked.run?, Option.map_eq_some_iff] at isRun
  obtain ⟨work, underWay, same⟩ := isRun
  exact ⟨tracked, work, known, underWay, same⟩

theorem mem_runs (shows : session.Shows documents calls)
    (known : documents id = some tracked) (underWay : tracked.work? = some work) :
    tracked.runOf id work ∈ session.runs := by
  rw [shows.runs]
  simp [Tracked.runOf, Tracked.run?, known, underWay]

theorem eq_of_id (shows : session.Shows documents calls) {left right : Run}
    (leftMember : left ∈ session.runs) (rightMember : right ∈ session.runs)
    (sameId : left.id = right.id) : left = right :=
  List.inj_on_of_nodup_map shows.solitary leftMember rightMember sameId

theorem distinct (shows : session.Shows documents calls) :
    Run.Distinct session.runs :=
  List.Nodup.of_map Prod.fst (by simpa [Run.key, Function.comp_def] using shows.solitary)

theorem fits (shows : session.Shows documents calls) {run : Run}
    (member : run ∈ session.runs) :
    (Work.mk run.config run.origin run.phase).Fits session.clock := by
  obtain ⟨tracked, work, known, underWay, same⟩ := shows.exists_work member
  rw [← same]
  exact (shows.working known underWay).2

/-- No run waits for a lock. -/
theorem not_waiting (shows : session.Shows documents calls) {run : Run}
    (member : run ∈ session.runs) : run.phase ≠ .waiting := by
  intro waiting
  have fits := shows.fits member
  rw [Work.Fits, waiting] at fits
  exact fits

/-- A document has no run but its own. -/
theorem runs_of (shows : session.Shows documents calls) (id : DocumentId) :
    session.runs.filter (·.id = id) = ((documents id).bind (Tracked.run? id)).toList := by
  have nodup : session.runs.Nodup := List.Nodup.of_map _ shows.solitary
  have own : (session.runs.filter (·.id = id)).Perm
      ((documents id).bind (Tracked.run? id)).toList := by
    rw [List.perm_ext_iff_of_nodup (nodup.filter _)
      (by cases (documents id).bind (Tracked.run? id) <;> simp)]
    intro run
    rw [List.mem_filter, shows.runs, Option.mem_toList, decide_eq_true_eq]
    constructor
    · rintro ⟨shown, rfl⟩
      exact shown
    · intro shown
      have here : run.id = id := Tracked.id_of_mem_run? (Option.mem_toList.mpr shown)
      exact ⟨by rw [here]; exact shown, here⟩
  cases shown : (documents id).bind (Tracked.run? id) with
  | none =>
      rw [shown] at own
      exact own.eq_nil
  | some run =>
      rw [shown] at own
      exact List.perm_singleton.mp own

/-- The runs are those of the other documents and the one of this document. -/
theorem perm_others (shows : session.Shows documents calls) (id : DocumentId) :
    session.runs.Perm
      (session.others id ++ ((documents id).bind (Tracked.run? id)).toList) := by
  rw [← shows.runs_of id]
  refine (List.filter_append_perm (·.id = id) session.runs).symm.trans
    (List.perm_append_comm.trans ?_)
  refine List.Perm.append ?_ (List.Perm.refl _)
  rw [others]
  simp

/-- Whoever names a run of the document by its generation names its only run. -/
theorem filter_is (shows : session.Shows documents calls) {run : Run}
    (member : run ∈ session.runs) :
    session.runs.filter (!·.is run.id run.generation) = session.others run.id := by
  apply List.filter_congr
  intro other otherMember
  by_cases here : other.id = run.id
  · simp [shows.eq_of_id otherMember member here, Run.is]
  · simp [here, Run.is]

/-- Only the given document is changed, to what is tracked of it afterwards. -/
theorem turn {new? : Option Tracked} {news : List Event} {after : Nat}
    (shows : session.Shows documents calls)
    (turns : session.Turns id new? news final)
    (fits : ∀ tracked, new? = some tracked →
      id.number < session.nextId ∧ tracked.source < session.sources.length ∧
        ∀ work, tracked.work? = some work →
          session.held = true ∧ work.Fits session.clock)
    (counted : ∀ others,
      session.calls = calls + (others +
        (((documents id).bind (Tracked.run? id)).toList.map (·.origin.calls)).sum) →
      final.calls = after + (others +
        ((new?.bind (Tracked.run? id)).toList.map (·.origin.calls)).sum))
    (sound : ∀ cache, final.cache = some cache → cache.Sound) :
    final.Shows (Function.update documents id new?) after := by
  have length : final.sources.length = session.sources.length := by
    simpa using congrArg List.length turns.sources
  constructor
  case ids => exact turns.ids
  case entries =>
    intro other
    rw [turns.entries, turns.held]
    by_cases here : other = id
    · rw [if_pos here, here, Function.update_self]
    · rw [if_neg here, Function.update_of_ne here, shows.entries]
  case solitary =>
    rw [(turns.runs.map Run.id).nodup_iff, List.map_append, List.nodup_append]
    refine ⟨shows.solitary.sublist (List.filter_sublist.map _), ?_, ?_⟩
    · cases new?.bind (Tracked.run? id) <;> simp
    · intro other otherMember own ownMember
      obtain ⟨run, runMember, rfl⟩ := List.mem_map.mp otherMember
      obtain ⟨ownRun, ownRunMember, rfl⟩ := List.mem_map.mp ownMember
      rw [Tracked.id_of_mem_run? ownRunMember]
      simpa using (List.mem_filter.mp runMember).2
  case runs =>
    intro run
    rw [turns.runs.mem_iff, List.mem_append]
    by_cases here : run.id = id
    · rw [here, Function.update_self, others, List.mem_filter]
      simp [here]
    · rw [Function.update_of_ne here, ← shows.runs, others, List.mem_filter]
      have foreign : run ∉ (new?.bind (Tracked.run? id)).toList :=
        fun member => here (Tracked.id_of_mem_run? member)
      simp [here, foreign]
  case known =>
    intro other tracked known
    rw [turns.nextId, length]
    by_cases here : other = id
    · rw [here, Function.update_self] at known
      rw [here]
      exact ⟨(fits tracked known).1, (fits tracked known).2.1⟩
    · rw [Function.update_of_ne here] at known
      exact shows.known known
  case working =>
    intro other tracked work known underWay
    rw [turns.held, turns.clock]
    by_cases here : other = id
    · rw [here, Function.update_self] at known
      exact (fits tracked known).2.2 work underWay
    · rw [Function.update_of_ne here] at known
      exact shows.working known underWay
  case quiet => exact turns.quiet
  case sound => exact sound
  case debounce => rw [turns.settings]; exact shows.debounce
  case dropped => rw [turns.dropped, turns.held]; exact shows.dropped
  case calls =>
    rw [(turns.runs.map _).sum_nat, List.map_append, List.sum_append]
    apply counted
    rw [shows.calls, ((shows.perm_others id).map _).sum_nat, List.map_append,
      List.sum_append]

/-- What is not written in the books does not matter. -/
theorem aside (shows : session.Shows documents calls) (metrics : Metrics)
    (notices : List Notice) (control : Control) (answer : Answer)
    (log : List (Nat × Event)) :
    { session with metrics, notices, control, answer, log }.Shows documents calls where
  ids := shows.ids
  entries := shows.entries
  solitary := shows.solitary
  runs := shows.runs
  known := shows.known
  working := shows.working
  quiet := shows.quiet
  sound := shows.sound
  debounce := shows.debounce
  dropped := shows.dropped
  calls := shows.calls

end Shows

end Session

end LogTint
