import LogTint.Proofs.Rearming
import LogTint.Proofs.ReorderedMoves
import LogTint.Proofs.Silence

/-!
# Changes of settings

Settings with a fault are turned down and leave no trace.  All others are taken over,
and every tracked document is edited under them or, if it was given up, released.  The
order in which the documents are enumerated makes no difference.
-/

namespace LogTint

/-! ### Operations that can change places -/

theorem Metrics.record_record (metrics : Metrics) (first second : Occurrence) :
    (metrics.record first).record second = (metrics.record second).record first := by
  cases first <;> cases second <;> try rfl
  case documentRegistered.documentClosed => simp [record]
  case documentClosed.documentRegistered => simp [record]
  case computed.computed earlier later =>
      simp [record, UInt64.add_assoc, UInt64.add_comm earlier.toUInt64]

theorem Source.ask_ask (sources : List Source) (first second : SourceId) :
    ask (ask sources first) second = ask (ask sources second) first := by
  apply List.ext_getElem?
  intro index
  by_cases here : first = index <;> by_cases there : second = index <;>
    simp [ask, here, there]

/-- Settings are turned down with a reason. -/
theorem Settings.reason_of_validate {settings : Settings} {error : HighlightError}
    (rejected : settings.validate = .error error) :
    ∃ reason, error = .invalidConfiguration reason := by
  unfold validate at rejected
  split at rejected
  case h_1 => cases rejected
  case h_2 fault _ =>
    cases rejected
    exact ⟨fault.message, rfl⟩

namespace Registry

variable {registry other : Registry}

theorem entries_eq (distinct : registry.ids.Nodup) :
    registry.entries = registry.ids.filterMap registry.find? := by
  rw [ids, List.filterMap_map]
  symm
  have found : registry.entries.filterMap (registry.find? ∘ Entry.id) =
      registry.entries.filterMap some :=
    List.filterMap_congr fun entry member => find?_of_mem distinct member
  rw [found, List.filterMap_some]

/-- A registry is known by its documents and the entry of each. -/
theorem eq_of_find? (distinct : registry.ids.Nodup) (sameIds : other.ids = registry.ids)
    (same : ∀ id, other.find? id = registry.find? id) : other = registry := by
  have entries : other.entries = registry.entries := by
    rw [entries_eq distinct, entries_eq (sameIds ▸ distinct), sameIds, funext same]
  cases other
  cases registry
  exact congrArg mk entries

end Registry

namespace Run

variable {id : DocumentId} {armed : Option Nat} {runs : List Run} {run : Run}

theorem origin_of_mem_grant (member : run ∈ grant runs) :
    ∃ earlier ∈ runs, run.key = earlier.key ∧ (run = earlier ∨ run.phase = .granted) := by
  unfold grant at member
  split at member
  case h_1 first found =>
      rcases List.mem_append.mp member with kept | last
      · exact ⟨run, (List.mem_filter.mp kept).1, rfl, .inl rfl⟩
      · rw [List.mem_singleton.mp last]
        exact ⟨first, List.mem_of_find?_eq_some found, rfl, .inr rfl⟩
  case h_2 => exact ⟨run, member, rfl, .inl rfl⟩

/-- What is left when the run that is armed was cancelled. -/
theorem origin_of_mem_cancel (member : run ∈ (cancel id armed runs).2) :
    (∃ earlier ∈ runs, run = earlier ∨ run.phase = .granted) ∧
      (run.id = id → armed ≠ some run.generation) := by
  unfold cancel at member
  cases found : armed.bind fun generation => runs.find? (·.is id generation) with
  | none =>
      rw [found] at member
      refine ⟨⟨run, member, .inl rfl⟩, ?_⟩
      rintro rfl rfl
      exact List.find?_eq_none.mp found run member (is_iff.mpr rfl)
  | some armedRun =>
      rw [found] at member
      obtain ⟨generation, rfl, first⟩ := Option.bind_eq_some_iff.mp found
      obtain ⟨earlier, remains, sameKey, same⟩ : ∃ earlier ∈
          runs.filter (!·.is armedRun.id armedRun.generation),
            run.key = earlier.key ∧ (run = earlier ∨ run.phase = .granted) := by
        unfold leave at member
        dsimp only at member
        split at member
        · exact origin_of_mem_grant member
        · exact ⟨run, member, rfl, .inl rfl⟩
      obtain ⟨kept, different⟩ := List.mem_filter.mp remains
      refine ⟨⟨earlier, kept, same⟩, ?_⟩
      rintro rfl isArmed
      cases isArmed
      have armedIs : armedRun.is run.id run.generation = true := by
        simpa using List.find?_some first
      have cancelled : earlier.key = armedRun.key := sameKey.symm.trans (is_iff.mp armedIs).symm
      simp [is_iff.mpr cancelled] at different

/-- A run that still sleeps was not armed. -/
theorem mem_of_mem_cancel (member : run ∈ (cancel id armed runs).2)
    (asleep : run.phase.isSleeping = true) :
    run ∈ runs ∧ (run.id = id → armed ≠ some run.generation) := by
  obtain ⟨⟨earlier, kept, rfl | granted⟩, unarmed⟩ := origin_of_mem_cancel member
  · exact ⟨kept, unarmed⟩
  · rw [granted] at asleep
    cases asleep

end Run

namespace Session

variable {debts after : Debts} {session final later : Session} {id : DocumentId}
  {entry : Entry} {settings : Settings} {ids others : List DocumentId}

/-! ### News of closed documents -/

/-- How often the host was told, or is going to be told, that a document is closed. -/
def closings (session : Session) (id : DocumentId) : Nat :=
  session.log.countP (·.2 = .closed id) + session.notices.countP (·.id = id)

/-- A document that is not tracked is never closed again. -/
theorem closings_of_effect {kind : EffectKind}
    (effect : Effect kind (debts, session) (after, final))
    (coherent : Coherent debts session) (untracked : session.registry.find? id = none) :
    final.closings id = session.closings id := by
  have foreign : ∀ {other}, session.registry.contains other = true → other ≠ id := by
    rintro other tracked rfl
    obtain ⟨entry, found⟩ := Registry.contains_iff.mp tracked
    cases untracked.symm.trans found
  have spared : ∀ {time : Nat} {event : Event}, event ≠ .closed id →
      final.log = session.log ++ [(time, event)] → final.notices = session.notices →
        final.closings id = session.closings id := by
    intro time event different log notices
    simp [closings, log, notices, different]
  cases effect.telling coherent with
  | nothing log notices => rw [closings, log, notices, closings]
  | remark remark log notices =>
      refine spared ?_ log notices
      rintro rfl
      cases remark
  | @news event other told _ tracked _ log notices =>
      refine spared ?_ log notices
      rintro rfl
      cases told
      exact foreign tracked rfl
  | unheeded exit told minor log notices =>
      refine spared ?_ log notices
      rintro rfl
      cases minor
  | owed tracked _ log notices =>
      simp [closings, log, notices, foreign tracked]
  | @settled notice member log notices =>
      have once := (List.perm_cons_erase member).countP_eq (fun notice => notice.id = id)
      rw [List.countP_cons] at once
      rw [closings, log, notices, closings, once, List.countP_append, List.countP_singleton]
      by_cases here : notice.id = id
      · simp [here]
        omega
      · simp [here]

/-- A document that is not tracked any more is closed as often as it was. -/
theorem closings_of_moves {moves : List Move}
    (reached : session.moves? moves = some later)
    (coherent : Coherent session.debts session) (known : id.number < session.nextId)
    (untracked : session.registry.find? id = none) :
    later.closings id = session.closings id := by
  refine (invariant_of_moves
    (fun _ later => id.number < later.nextId ∧ later.registry.find? id = none ∧
      later.closings id = session.closings id) ?_ reached coherent
    ⟨known, untracked, rfl⟩).2.2
  rintro kind debts session after final effect coherent ⟨known, untracked, same⟩
  have descent := effect.descent coherent
  exact ⟨Nat.lt_of_lt_of_le known descent.nextId, untracked_of_descent descent known untracked,
    (closings_of_effect effect coherent untracked).trans same⟩

/-! ### The order of enumeration -/

/-- Documents that are edited in another order differ in an order only. -/
theorem Rearmed.reordered {twin : Session} (first : Rearmed session ids final)
    (second : Rearmed session others twin) (perm : others.Perm ids)
    (distinct : session.registry.ids.Nodup) (control : twin.control = final.control) :
    Reordered { final with answer := .outcomes (session.outcomes ids) }
      { twin with answer := .outcomes (session.outcomes others) } := by
  have registry : twin.registry = final.registry := by
    have sameIds : twin.registry.ids = final.registry.ids := by
      rw [first.ids, second.ids]
      simp only [perm.mem_iff]
    refine Registry.eq_of_find? ?_ sameIds fun id => ?_
    · rw [first.ids]
      exact distinct.filter _
    · rw [first.find?, second.find?]
      simp only [perm.mem_iff]
  have sources : twin.sources = final.sources := by
    rw [first.sources, second.sources]
    exact (perm.flatMap_right _).foldl_eq'
      (fun _ _ _ _ sources => Source.ask_ask sources _ _) _
  have metrics : twin.metrics = final.metrics := by
    rw [first.metrics, second.metrics]
    exact (perm.flatMap_right _).foldl_eq'
      (fun _ _ _ _ metrics => metrics.record_record _ _) _
  refine ⟨fun id => ?_, ?_, .outcomes (perm.filterMap _), ?_⟩
  · have own : twin.runsOf id = final.runsOf id := by
      rw [first.runs, second.runs]
      simp only [perm.mem_iff]
    exact own
  · rw [first.notices, second.notices]
    exact (perm.flatMap_right _).append_left _
  · conv_lhs => rw [second.rest]
    conv_rhs => rw [first.rest]
    simp only [registry, sources, metrics, control]

/-! ### Documents under new settings -/

/-- The runs of a document whose timer has yet to fire. -/
def timers (session : Session) (id : DocumentId) : List Run :=
  (session.runsOf id).filter (·.phase.isSleeping)

/-- The settings are taken over, and every tracked document is edited under them or
released. -/
structure Reconfigured (new : Settings) (session : Session)
    (outcomes : List (DocumentId × EditOutcome)) (final : Session) : Prop where
  settings : final.settings = new
  answer : final.answer = .outcomes outcomes
  log : final.log = session.log
  once : (outcomes.map Prod.fst).Nodup
  mem_outcomes : ∀ {id outcome}, (id, outcome) ∈ outcomes ↔
    ∃ entry document, session.registry.find? id = some entry ∧
      session.sources[entry.source]? = some document ∧ document.isAlive = true ∧
      outcome = if new.maxChars < document.length then .bypassed else .scheduled
  bypassed : ∀ {id entry}, session.registry.find? id = some entry →
    (id, .bypassed) ∈ outcomes →
      final.registry.find? id = some
        { entry with state := .idle, generation := entry.generation + 1, armed := none } ∧
      final.timers id = []
  scheduled : ∀ {id entry}, session.registry.find? id = some entry →
    (id, .scheduled) ∈ outcomes →
      final.registry.find? id = some
        { entry with
          state := .pending
          generation := entry.generation + 1
          armed := some (entry.generation + 1) } ∧
      final.timers id =
        [{ id
           generation := entry.generation + 1
           source := entry.source
           config := new.workerConfig
           origin := .timer
           phase := .sleeping (session.clock + new.debounce) }]
  released : ∀ {id entry}, session.registry.find? id = some entry →
    session.isAlive entry.source = false →
      final.registry.find? id = none ∧ final.timers id = [] ∧ session.closings id = 0 ∧
      ∀ {moves later}, final.moves? moves = some later → later.closings id = 1
  untracked : ∀ {id}, session.registry.find? id = none → final.registry.find? id = none

theorem fate_outcome?_iff {outcome : EditOutcome} :
    (session.fate id).outcome? = some outcome ↔
      ∃ entry document, session.registry.find? id = some entry ∧
        session.sources[entry.source]? = some document ∧ document.isAlive = true ∧
        outcome = session.settings.workerConfig.verdict document.length := by
  cases found : session.registry.find? id with
  | none => simp [fate, found]
  | some entry =>
      rw [fate_of_found found, Entry.outcome?_fate, Option.map_eq_some_iff]
      constructor
      · rintro ⟨chars, living, rfl⟩
        obtain ⟨document, source, alive, rfl⟩ := lengthOf?_eq_some_iff.mp living
        exact ⟨entry, document, rfl, source, alive, rfl⟩
      · rintro ⟨_, document, ⟨⟩, source, alive, rfl⟩
        exact ⟨_, lengthOf?_eq_some_iff.mpr ⟨document, source, alive, rfl⟩, rfl⟩

/-- Every timer of a document is cancelled with its armed run. -/
theorem timers_of_cancel (coherent : Coherent debts session)
    (found : session.registry.find? id = some entry) (open_ : entry.state ≠ .closed) :
    (Run.cancel entry.id entry.armed (session.runsOf id)).2.filter (·.phase.isSleeping) =
      [] := by
  rw [List.filter_eq_nil_iff]
  intro run member asleep
  obtain ⟨own, unarmed⟩ := Run.mem_of_mem_cancel member asleep
  obtain ⟨present, here⟩ := List.mem_filter.mp own
  have sameId : run.id = entry.id :=
    (of_decide_eq_true here).trans (Registry.find?_id found).symm
  exact unarmed sameId ((coherent.agrees found open_).sleeping run present sameId asleep)

/-- What the scheduler keeps in order stays so while it edits the documents. -/
theorem sound_of_adopt (coherent : Coherent session.debts session) (forgets : session.Forgets)
    (idle : session.control = .idle) (all : session.registry.ids ⊆ ids)
    (ends : (session.adopt settings ids).EndsIn final) :
    Coherent final.debts final ∧ final.Forgets := by
  obtain ⟨_, steps, reached⟩ := ends
  have asked : Inner (session.debts, session)
      (.ofFrames [.host], session.act (.reconfigure settings)) := by
    rw [Session.debts, idle]
    exact .single (.aside (Nat.le_refl _) rfl fun held => held)
  have effects : Inner (session.debts, session)
      ((session.adopt settings ids).debts, session.adopt settings ids) :=
    asked.trans
      (reconfigure_inner (session.act (.reconfigure settings)) settings all [.host])
  have begun := effects.induct
    (fun debts session => Coherent debts session ∧ session.Forgets)
    (fun effect both => ⟨both.1.ofEffect effect, both.2.keep effect both.1⟩)
    ⟨coherent, forgets⟩
  exact ⟨coherent_of_moves reached begun.1, forgets_of_moves reached begun.1 begun.2⟩

theorem closings_of_tracked (coherent : Coherent debts session) (forgets : session.Forgets)
    (found : session.registry.find? id = some entry) : session.closings id = 0 := by
  obtain ⟨_, unclosed, unnoticed⟩ :=
    Forgotten.unheard forgets coherent (Registry.contains_iff.mpr ⟨entry, found⟩)
  have untold : session.log.countP (·.2 = .closed id) = 0 := by
    rw [List.countP_eq_zero]
    rintro ⟨time, event⟩ member closed
    cases of_decide_eq_true closed
    exact unclosed ⟨time, member⟩
  have unsent : session.notices.countP (·.id = id) = 0 := by
    rw [List.countP_eq_zero]
    intro notice member same
    exact unnoticed notice member (of_decide_eq_true same)
  rw [closings, untold, unsent]

theorem mem_outcomes_iff {outcome : EditOutcome} :
    (id, outcome) ∈ session.outcomes ids ↔
      id ∈ ids ∧ (session.fate id).outcome? = some outcome := by
  rw [outcomes, List.mem_filterMap]
  constructor
  · rintro ⟨other, member, told⟩
    obtain ⟨_, made, same⟩ := Option.map_eq_some_iff.mp told
    cases same
    exact ⟨member, made⟩
  · rintro ⟨member, made⟩
    exact ⟨id, member, by rw [made]; rfl⟩

/-- Outcomes are told in the order of the edits, once for each document. -/
theorem outcomes_sublist (session : Session) (ids : List DocumentId) :
    ((session.outcomes ids).map Prod.fst).Sublist ids := by
  induction ids with
  | nil => exact List.Sublist.refl _
  | cons id ids induction =>
      rw [outcomes_cons, List.map_append]
      cases (session.fate id).outcome? with
      | none => exact induction.cons id
      | some outcome => exact induction.cons_cons id

theorem fate_of_outcome {outcome : EditOutcome}
    (found : session.registry.find? id = some entry)
    (made : (session.fate id).outcome? = some outcome) :
    session.fate id =
      entry.fate (session.runsOf id) session.settings.workerConfig session.clock
        (some outcome) := by
  rw [fate_of_found found] at made ⊢
  rw [Entry.outcome?_fate] at made
  rw [made]

namespace Rearmed

variable {edited : Session}

theorem timers (rearmed : Rearmed session ids edited) (member : id ∈ ids) :
    edited.timers id = (session.fate id).runs.filter (·.phase.isSleeping) := by
  rw [Session.timers, rearmed.runs, if_pos member]

/-- The host is told once of each document that was given up. -/
theorem closings (rearmed : Rearmed session ids edited) (member : id ∈ ids)
    (told : (session.fate id).told = [id]) (unclosed : session.closings id = 0)
    (distinct : (edited.notices.map Notice.id).Nodup) : edited.closings id = 1 := by
  have log : edited.log = session.log := by rw [rearmed.rest]
  have owed : id ∈ edited.notices.map (·.id) := by
    rw [rearmed.notices]
    refine List.mem_append_right _ (List.mem_flatMap.mpr ⟨id, member, ?_⟩)
    rw [told]
    exact List.mem_singleton_self id
  have once : edited.notices.countP (·.id = id) = 1 := by
    have counted := List.count_eq_one_of_mem distinct owed
    rw [List.count, List.countP_map] at counted
    rw [← counted]
    rfl
  unfold Session.closings at unclosed ⊢
  rw [log, once, Nat.eq_zero_of_add_eq_zero_right unclosed]

theorem bypassed (rearmed : Rearmed session ids edited) (member : id ∈ ids)
    (coherent : Coherent debts session) (found : session.registry.find? id = some entry)
    (open_ : entry.state ≠ .closed) (made : (session.fate id).outcome? = some .bypassed) :
    edited.registry.find? id = some
        { entry with state := .idle, generation := entry.generation + 1, armed := none } ∧
      edited.timers id = [] := by
  have fate := fate_of_outcome found made
  constructor
  · rw [rearmed.find?, if_pos member, fate]
    simp [Entry.fate, Entry.renewed, open_, Entry.bumped]
  · rw [rearmed.timers member, fate]
    exact timers_of_cancel coherent found open_

theorem scheduled (rearmed : Rearmed session ids edited) (member : id ∈ ids)
    (coherent : Coherent debts session) (found : session.registry.find? id = some entry)
    (open_ : entry.state ≠ .closed) (made : (session.fate id).outcome? = some .scheduled) :
    edited.registry.find? id = some
        { entry with
          state := .pending
          generation := entry.generation + 1
          armed := some (entry.generation + 1) } ∧
      edited.timers id =
        [{ id
           generation := entry.generation + 1
           source := entry.source
           config := session.settings.workerConfig
           origin := .timer
           phase := .sleeping (session.clock + session.settings.debounce) }] := by
  have fate := fate_of_outcome found made
  constructor
  · rw [rearmed.find?, if_pos member, fate]
    simp [Entry.fate, Entry.renewed, open_, Entry.bumped]
  · rw [rearmed.timers member, fate, Entry.fate]
    dsimp only
    rw [List.filter_append, timers_of_cancel coherent found open_, Registry.find?_id found]
    rfl

theorem released (rearmed : Rearmed session ids edited) (member : id ∈ ids)
    (coherent : Coherent debts session) (found : session.registry.find? id = some entry)
    (open_ : entry.state ≠ .closed) (gone : session.isAlive entry.source = false) :
    edited.registry.find? id = none ∧ edited.timers id = [] ∧
      (session.fate id).told = [id] := by
  have fate := fate_of_found found
  rw [lengthOf?_eq_none_iff.mpr gone, Option.map_none] at fate
  refine ⟨?_, ?_, ?_⟩
  · rw [rearmed.find?, if_pos member, fate]
    rfl
  · rw [rearmed.timers member, fate]
    exact timers_of_cancel coherent found open_
  · rw [fate, Entry.fate, Registry.find?_id found]

/-- Documents that are edited after the settings have changed. -/
theorem reconfigured {answer : Answer}
    (rearmed : (session.withSettings settings).Rearmed ids edited)
    (perm : ids.Perm session.registry.ids) (coherent : Coherent debts session)
    (present : session.dropped = false) (forgets : session.Forgets)
    (answered : answer = .outcomes ((session.withSettings settings).outcomes ids))
    (coherentFinal : Coherent (Session.debts { edited with answer }) { edited with answer })
    (forgetsFinal : Forgets { edited with answer }) :
    Reconfigured settings session ((session.withSettings settings).outcomes ids)
      { edited with answer } := by
  have tracked : ∀ {id entry}, session.registry.find? id = some entry → id ∈ ids :=
    fun found => perm.mem_iff.mpr (Registry.mem_ids_iff.mpr ⟨_, found⟩)
  have coherentStart : Coherent debts (session.withSettings settings) :=
    coherent.congr rfl rfl rfl rfl (fun held => held) (Nat.le_refl _) (List.Subset.refl _) rfl
  constructor
  case settings => rw [rearmed.rest]; rfl
  case answer => exact answered
  case log => rw [rearmed.rest]; rfl
  case once => exact (perm.nodup_iff.mpr coherent.ids).sublist (outcomes_sublist _ ids)
  case mem_outcomes =>
    intro id outcome
    rw [mem_outcomes_iff, fate_outcome?_iff]
    constructor
    · rintro ⟨_, made⟩
      exact made
    · rintro ⟨entry, document, found, living⟩
      exact ⟨tracked found, entry, document, found, living⟩
  case bypassed =>
    intro id entry found member
    exact rearmed.bypassed (tracked found) coherentStart found
      (coherent.present present found) (mem_outcomes_iff.mp member).2
  case scheduled =>
    intro id entry found member
    exact rearmed.scheduled (tracked found) coherentStart found
      (coherent.present present found) (mem_outcomes_iff.mp member).2
  case released =>
    intro id entry found gone
    obtain ⟨untracked, timers, told⟩ := rearmed.released (tracked found) coherentStart found
      (coherent.present present found) gone
    have unclosed := closings_of_tracked coherent forgets found
    refine ⟨untracked, timers, unclosed, fun reached => ?_⟩
    have known : id.number < edited.nextId := by
      rw [rearmed.rest]
      exact coherent.known found
    exact (closings_of_moves reached coherentFinal known untracked).trans
      (rearmed.closings (tracked found) told unclosed forgetsFinal.distinct)
  case untracked =>
    intro id untracked
    have absent : id ∉ ids := by
      rw [perm.mem_iff, Registry.mem_ids_iff]
      rintro ⟨entry, found⟩
      cases untracked.symm.trans found
    have same : edited.registry.find? id = session.registry.find? id := by
      rw [rearmed.find?, if_neg absent]
      rfl
    exact same.trans untracked

end Rearmed

/-! ### Either everything or nothing -/

/-- Whatever may happen to one session may happen to another alike, and differs in an
order only. -/
def Foretells (session twin : Session) : Prop :=
  ∀ moves later, session.moves? moves = some later →
    ∃ movesTwin laterTwin, List.Forall₂ Move.Alike moves movesTwin ∧
      twin.moves? movesTwin = some laterTwin ∧ later.Reordered laterTwin

/-- When no document acts, a change of settings is either turned down and leaves no trace
or goes through with all tracked documents, in whichever order they are enumerated. -/
theorem adopts_all_or_nothing {cache : Option Cache} {moves : List Move}
    (reached : (initial settings cache).moves? moves = some session)
    (idle : session.control = .idle) (held : session.held = true)
    (allQuiet : ∀ source ∈ session.sources, source.isQuiet = true) (new : Settings) :
    session.moves? [.act (.reconfigure new), .proceed] =
        some (session.adopt new session.registry.ids) ∧
      ∀ ids, ids.Perm session.registry.ids →
        (∀ error, new.validate = .error error →
          (∃ reason, error = .invalidConfiguration reason) ∧
          (session.adopt new ids).EndsIn { session with answer := .failure error }) ∧
        (new.validate = .ok () →
          ∃ outcomes final, (session.adopt new ids).EndsIn final ∧
            session.Reconfigured new outcomes final ∧
            ∀ others twin, others.Perm session.registry.ids →
              (session.adopt new others).EndsIn twin →
                final.Reordered twin ∧ final.Foretells twin) := by
  have start := Coherent.initial settings cache
  have coherent := coherent_of_moves reached start
  have forgets := forgets_of_moves reached start (Forgets.initial settings cache)
  have present := coherent.present_of_held held
  refine ⟨moves?_adopt idle held new, fun ids perm => ⟨?_, fun accepted => ?_⟩⟩
  case refine_1 =>
    intro error rejected
    exact ⟨Settings.reason_of_validate rejected, adopt_rejected rejected idle held ids⟩
  case refine_2 =>
    obtain ⟨edited, rearmed, control, ends⟩ :=
      adopt_accepted accepted held allQuiet (perm.nodup_iff.mpr coherent.ids)
    obtain ⟨coherentFinal, forgetsFinal⟩ :=
      sound_of_adopt coherent forgets idle perm.symm.subset ends
    refine ⟨_, _, ends, rearmed.reconfigured perm coherent present forgets rfl coherentFinal
      forgetsFinal, ?_⟩
    intro others twin permTwin endsTwin
    obtain ⟨editedTwin, rearmedTwin, controlTwin, endsAlso⟩ :=
      adopt_accepted accepted held allQuiet (permTwin.nodup_iff.mpr coherent.ids)
    have reordered := rearmed.reordered rearmedTwin (permTwin.trans perm.symm) coherent.ids
      (controlTwin.trans control.symm)
    rw [← endsTwin.unique endsAlso]
    exact ⟨reordered, fun moves later reached => reordered.moves? reached⟩

/-- A document with a timer, one that is over the new ceiling, and one that was given
up. -/
def threeDocuments : List Move :=
  [.create (.quiet ['a', 'b'] true .counted), .create (.quiet ['a', 'b', 'c'] true .counted),
    .create (.quiet ['a'] true .counted), .act (.register 0), .proceed, .proceed, .proceed,
    .act (.register 1), .proceed, .proceed, .proceed, .act (.register 2), .proceed, .proceed,
    .proceed, .act (.edit ⟨1⟩), .proceed, .proceed, .proceed, .proceed, .act (.release 2),
    .proceed, .proceed, .proceed]

/-- A lower ceiling. -/
def lowered : Settings := { Settings.standard with maxChars := 2 }

/-- Settings with a fault. -/
def ceilingless : Settings := { Settings.standard with maxChars := 0 }

theorem adopts_all_or_nothing_of_threeDocuments :
    ∃ session, (initial .standard none).moves? threeDocuments = some session ∧
      session.control = .idle ∧ session.held = true ∧
      (∀ source ∈ session.sources, source.isQuiet = true) ∧
      (∃ error, ceilingless.validate = .error error ∧
        (session.adopt ceilingless session.registry.ids).EndsIn
          { session with answer := .failure error }) ∧
      lowered.validate = .ok () ∧ session.registry.ids = [⟨1⟩, ⟨2⟩, ⟨3⟩] ∧
      ∃ outcomes final twin, (session.adopt lowered session.registry.ids).EndsIn final ∧
        session.Reconfigured lowered outcomes final ∧
        (session.adopt lowered session.registry.ids.reverse).EndsIn twin ∧
        final.Reordered twin ∧ final.Foretells twin := by
  have accepted : lowered.validate = .ok () := rfl
  obtain ⟨session, reached, idle, held, allQuiet, tracked⟩ :
      ∃ session, (initial .standard none).moves? threeDocuments = some session ∧
        session.control = .idle ∧ session.held = true ∧
        (∀ source ∈ session.sources, source.isQuiet = true) ∧
        session.registry.ids = [⟨1⟩, ⟨2⟩, ⟨3⟩] :=
    ⟨_, rfl, rfl, rfl, by decide, rfl⟩
  obtain ⟨_, turnsDown⟩ := adopts_all_or_nothing reached idle held allQuiet ceilingless
  obtain ⟨_, adopts⟩ := adopts_all_or_nothing reached idle held allQuiet lowered
  have backwards : session.registry.ids.reverse.Perm session.registry.ids :=
    List.reverse_perm _
  have rejected := ((turnsDown _ (.refl _)).1 _ rfl).2
  obtain ⟨outcomes, final, ends, reconfigured, anyOrder⟩ := (adopts _ (.refl _)).2 accepted
  obtain ⟨_, twin, endsTwin, _⟩ := (adopts _ backwards).2 accepted
  obtain ⟨reordered, foretells⟩ := anyOrder _ twin backwards endsTwin
  exact ⟨session, reached, idle, held, allQuiet, ⟨_, rfl, rejected⟩, accepted, tracked,
    outcomes, final, twin, ends, reconfigured, endsTwin, reordered, foretells⟩

end Session

end LogTint
