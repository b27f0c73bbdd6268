import LogTint.Proofs.Fates
import LogTint.Proofs.Histories

/-!
# Edits that follow a change of settings

A change of settings edits the tracked documents one after the other.  As long as none
of them acts, what becomes of a document can be read off the session before the first of
these edits, so that it does not matter which others went before.
-/

namespace LogTint

namespace Source

variable {sources : List Source}

/-- Sources after one of them was asked for its length. -/
def ask (sources : List Source) (index : SourceId) : List Source :=
  sources.modify index fun source => source.beginLength.2.endReading

theorem ask_eq {index : SourceId} {document : Source}
    (found : sources[index]? = some document) :
    ask sources index =
      (sources.modify index fun _ => document.beginLength.2).modify index endReading := by
  apply List.ext_getElem?
  intro other
  by_cases here : index = other
  · subst here
    simp [ask, found]
  · simp [ask, here]

theorem ask_foldl (allQuiet : ∀ source ∈ sources, source.isQuiet = true)
    (indices : List SourceId) :
    (indices.foldl ask sources).map unscripted = sources.map unscripted ∧
      ∀ source ∈ indices.foldl ask sources, source.isQuiet = true := by
  induction indices generalizing sources with
  | nil => exact ⟨rfl, allQuiet⟩
  | cons index indices induction =>
      have asked : (ask sources index).map unscripted = sources.map unscripted ∧
          ∀ source ∈ ask sources index, source.isQuiet = true := by
        cases found : sources[index]? with
        | none =>
            rw [ask, List.modify_eq_self (List.getElem?_eq_none_iff.mp found)]
            exact ⟨rfl, allQuiet⟩
        | some document =>
            obtain ⟨_, same, quiet⟩ :=
              beginLength_of_isQuiet (allQuiet document (List.mem_of_getElem? found))
            rw [ask_eq found]
            exact reread found allQuiet same quiet
      obtain ⟨same, quiet⟩ := induction asked.2
      exact ⟨same.trans asked.1, quiet⟩

end Source

namespace Session

variable {session middle final : Session} {id : DocumentId} {entry : Entry}

/-! ### Documents edited one after the other -/

/-- The given documents were edited, each with the fate that it had at the start. -/
structure Rearmed (session : Session) (done : List DocumentId) (final : Session) : Prop where
  ids : final.registry.ids = session.registry.ids.filter fun id =>
    decide (id ∉ done) || (session.fate id).kept?.isSome
  find? : ∀ id, final.registry.find? id =
    if id ∈ done then (session.fate id).kept? else session.registry.find? id
  runs : ∀ id, final.runsOf id =
    if id ∈ done then (session.fate id).runs else session.runsOf id
  sources : final.sources =
    (done.flatMap fun id => (session.fate id).asked).foldl Source.ask session.sources
  metrics : final.metrics =
    (done.flatMap fun id => (session.fate id).occurrences).foldl Metrics.record
      session.metrics
  notices : final.notices.map (·.id) =
    session.notices.map (·.id) ++ done.flatMap fun id => (session.fate id).told
  rest : final =
    { session with
      registry := final.registry
      runs := final.runs
      sources := final.sources
      metrics := final.metrics
      notices := final.notices
      control := final.control }

namespace Rearmed

variable {start : Session} {done later : List DocumentId}

theorem nil (session : Session) (control : Control) :
    Rearmed session [] { session with control } where
  ids := by simp
  find? := by simp
  runs := by simp [runsOf]
  sources := rfl
  metrics := rfl
  notices := by simp
  rest := rfl

theorem single {fate : Fate} (news : List Notice) (isFate : session.fate id = fate)
    (touched : Touched id fate.kept? fate.runs fate.occurrences start middle)
    (asked : start =
      { session with sources := fate.asked.foldl Source.ask session.sources })
    (sent : final = { middle with notices := session.notices ++ news })
    (told : news.map (·.id) = fate.told) : Rearmed session [id] final where
  ids := by
    rw [sent, touched.ids, asked]
    apply List.filter_congr
    intro other _
    by_cases here : other = id <;> simp [here, isFate]
  find? other := by
    rw [sent, touched.find?, asked]
    by_cases here : other = id <;> simp [here, isFate]
  runs other := by
    rw [sent]
    by_cases here : other = id
    · simpa [here, runsOf, isFate] using touched.here
    · have elsewhere := touched.runs.elsewhere other here
      rw [asked] at elsewhere
      simpa [here, runsOf] using elsewhere
  sources := by
    rw [sent, touched.rest, asked]
    simp [isFate]
  metrics := by
    rw [sent, touched.rest, asked]
    simp [isFate]
  notices := by
    rw [sent]
    simp [told, isFate]
  rest := by
    rw [sent, touched.rest, asked]

/-- Documents that are read without acting stay quiet and as they were. -/
theorem quiet (rearmed : Rearmed session done final)
    (allQuiet : ∀ source ∈ session.sources, source.isQuiet = true) :
    final.sources.map Source.unscripted = session.sources.map Source.unscripted ∧
      ∀ source ∈ final.sources, source.isQuiet = true := by
  rw [rearmed.sources]
  exact Source.ask_foldl allQuiet _

/-- The fate of a document does not depend on how many others were edited before. -/
theorem fate (rearmed : Rearmed session done final)
    (allQuiet : ∀ source ∈ session.sources, source.isQuiet = true) (waits : id ∉ done) :
    final.fate id = session.fate id := by
  apply fate_congr
  · rw [rearmed.find?, if_neg waits]
  · rw [rearmed.runs, if_neg waits]
  · exact (rearmed.quiet allQuiet).1
  · rw [rearmed.rest]
  · rw [rearmed.rest]

theorem trans (first : Rearmed session done middle) (second : Rearmed middle later final)
    (allQuiet : ∀ source ∈ session.sources, source.isQuiet = true)
    (disjoint : done.Disjoint later) : Rearmed session (done ++ later) final := by
  have fates : ∀ id ∈ later, middle.fate id = session.fate id := fun id member =>
    first.fate allQuiet fun earlier => disjoint earlier member
  have flat {α : Type} (of : Fate → List α) :
      (later.flatMap fun id => of (middle.fate id)) =
        later.flatMap fun id => of (session.fate id) := by
    rw [List.flatMap_def, List.flatMap_def]
    congr 1
    exact List.map_congr_left fun id member => congrArg of (fates id member)
  constructor
  case ids =>
    rw [second.ids, first.ids, List.filter_filter]
    apply List.filter_congr
    intro id _
    by_cases member : id ∈ later
    · have waits : id ∉ done := fun earlier => disjoint earlier member
      simp [member, waits, fates id member]
    · simp [member]
  case find? =>
    intro id
    rw [second.find?, first.find?]
    by_cases member : id ∈ later
    · simp [member, fates id member]
    · simp [member]
  case runs =>
    intro id
    rw [second.runs, first.runs]
    by_cases member : id ∈ later
    · simp [member, fates id member]
    · simp [member]
  case sources =>
    rw [second.sources, first.sources, flat, List.flatMap_append, List.foldl_append]
  case metrics =>
    rw [second.metrics, first.metrics, flat, List.flatMap_append, List.foldl_append]
  case notices =>
    rw [second.notices, first.notices, flat, List.flatMap_append, List.append_assoc]
  case rest =>
    rw [second.rest, first.rest]

end Rearmed

/-- The length of a document that does not act is known at once. -/
theorem finishEdit_rearmed {document : Source} (found : session.registry.find? id = some entry)
    (living : session.sources[entry.source]?.filter Source.isAlive = some document)
    (frames : List Frame) :
    ∃ answer edited,
      ((session.count .edit).modifySource entry.source fun _ =>
        document.beginLength.2).finishEdit id entry.source frames =
          edited.answering answer frames ∧
        Rearmed session [id] edited ∧ answer.outcome? = (session.fate id).outcome? := by
  have alive : session.lengthOf? entry.source = some document.length :=
    congrArg (Option.map Source.length) living
  have fate : entry.fate (session.runsOf id) session.settings.workerConfig session.clock
      (some (session.settings.workerConfig.verdict document.length)) = session.fate id := by
    rw [fate_of_found found, alive, Option.map_some]
  obtain ⟨source, _⟩ := filter_isAlive_eq_some living
  let start := { session with sources := Source.ask session.sources entry.source }
  have asked : ((session.count .edit).modifySource entry.source fun _ =>
      document.beginLength.2).modifySource entry.source Source.endReading =
        start.count .edit := by
    simp only [start, Source.ask_eq source]
    rfl
  have foundStart : start.registry.find? id = some entry := found
  obtain ⟨outcome, touched⟩ := applyEdit_touched foundStart document.length fate
  have living := entry.fate_living (session.runsOf id) session.settings.workerConfig
    session.clock (session.settings.workerConfig.verdict document.length)
  rw [fate] at living
  refine ⟨_, ((start.count .edit).applyEdit id document.length).2, ?_,
    .single [] rfl touched ?_ ?_ ?_, outcome⟩
  · unfold finishEdit
    rw [asked, show ((session.count .edit).modifySource entry.source fun _ =>
      document.beginLength.2).sources[entry.source]? = some document.beginLength.2 from
        modifySource_found (fun _ => document.beginLength.2) source]
    rfl
  · rw [living.1]
    rfl
  · rw [touched.rest, List.append_nil]
  · rw [living.2]
    rfl

/-- An edit of a document that does not act comes to its end at once. -/
theorem beginEdit_rearmed (allQuiet : ∀ source ∈ session.sources, source.isQuiet = true)
    (id : DocumentId) (frames : List Frame) :
    ∃ answer edited,
      session.beginEdit id frames = edited.answering answer (.call :: frames) ∧
        Rearmed session.beginCall [id] edited ∧
        answer.outcome? = (session.beginCall.fate id).outcome? := by
  unfold beginEdit
  have allQuiet : ∀ source ∈ session.beginCall.sources, source.isQuiet = true := allQuiet
  generalize session.beginCall = called at allQuiet
  dsimp only
  cases found : called.registry.find? id with
  | none =>
      have fate : called.fate id = { kept? := none, runs := called.runsOf id } := by
        rw [Session.fate, found]
      refine ⟨_, called, rfl, .single [] fate (untracked_touched found) rfl ?_ rfl, ?_⟩
      · rw [List.append_nil]
      · rw [fate]
        rfl
  | some entry =>
      dsimp only
      cases living : (called.count .edit).sources[entry.source]?.filter Source.isAlive with
      | none =>
          have gone : called.lengthOf? entry.source = none :=
            congrArg (Option.map Source.length) living
          have fate : called.fate id =
              entry.fate (called.runsOf id) called.settings.workerConfig
                called.clock none := by
            rw [fate_of_found found, gone, Option.map_none]
          have released := abandon_touched found called.settings.workerConfig called.clock
          let notice : Notice :=
            ⟨id, ((called.count .edit).release id).runs.filter (·.phase.isQueued)⟩
          refine ⟨_, _, rfl, .single [notice] fate released rfl ?_ ?_, ?_⟩
          · rw [sendNotice, released.rest]
          · rw [Entry.fate, Registry.find?_id found]
            rfl
          · rw [fate]
            rfl
      | some document =>
          obtain ⟨source, _⟩ := filter_isAlive_eq_some living
          have silent := (Source.beginLength_of_isQuiet
            (allQuiet document (List.mem_of_getElem? source))).1
          dsimp only
          rw [silent, List.isEmpty_nil, if_pos rfl]
          exact finishEdit_rearmed found living (.call :: frames)

/-! ### What follows a change of settings -/

/-- A call ends while the host holds the scheduler. -/
theorem proceed_call (held : session.held = true) (answer : Answer) (frames : List Frame) :
    (session.answering answer (.call :: frames)).proceed =
      answering { session with calls := session.calls - 1 } answer frames := by
  have ends : (session.answering answer (.call :: frames)).endCall =
      answering { session with calls := session.calls - 1 } answer (.call :: frames) := by
    apply if_neg
    simp [answering, held]
  calc (session.answering answer (.call :: frames)).proceed
      _ = (session.answering answer (.call :: frames)).endCall.answering answer frames := rfl
      _ = answering { session with calls := session.calls - 1 } answer frames := by
        rw [ends]
        rfl

theorem resume_rearm (session : Session) (answer : Answer) (id : DocumentId)
    (rest : List DocumentId) (outcomes : List (DocumentId × EditOutcome))
    (frames : List Frame) :
    session.resume answer (.rearm id rest outcomes) frames =
      session.rearmNext rest (outcomes ++ (answer.outcome?.map (id, ·)).toList) frames := by
  cases answer <;> simp [resume, Answer.outcome?]

/-- The outcomes of the edits that follow a change of settings. -/
def outcomes (session : Session) (ids : List DocumentId) :
    List (DocumentId × EditOutcome) :=
  ids.filterMap fun id => (session.fate id).outcome?.map (id, ·)

theorem outcomes_cons (session : Session) (id : DocumentId) (ids : List DocumentId) :
    session.outcomes (id :: ids) =
      ((session.fate id).outcome?.map (id, ·)).toList ++ session.outcomes ids := by
  unfold outcomes
  rw [List.filterMap_cons]
  cases (session.fate id).outcome? <;> rfl

theorem moves?_proceed {moves : List Move} (busy : session.isIdle = false) :
    session.moves? (.proceed :: moves) = session.proceed.moves? moves := by
  simp [moves?, move?, busy]

/-- A call that has edited documents ends. -/
theorem Rearmed.endCall {done : List DocumentId}
    (rearmed : Rearmed session.beginCall done final) (control : Control) :
    Rearmed session done { final with calls := final.calls - 1, control } where
  ids := rearmed.ids
  find? := rearmed.find?
  runs := rearmed.runs
  sources := rearmed.sources
  metrics := rearmed.metrics
  notices := rearmed.notices
  rest := by
    rw [rearmed.rest]
    rfl

/-- Documents that do not act are edited without a break. -/
theorem rearmNext_rearmed (held : session.held = true)
    (allQuiet : ∀ source ∈ session.sources, source.isQuiet = true)
    {ids : List DocumentId} (distinct : ids.Nodup)
    (outcomes : List (DocumentId × EditOutcome)) (frames : List Frame) :
    ∃ final,
      (session.rearmNext ids outcomes frames).moves?
          (List.replicate (2 * ids.length) .proceed) =
        some (final.answering (.outcomes (outcomes ++ session.outcomes ids)) frames) ∧
      Rearmed session ids final := by
  induction ids generalizing session outcomes with
  | nil =>
      refine ⟨session, ?_, .nil session session.control⟩
      rw [Session.outcomes, List.filterMap_nil, List.append_nil]
      rfl
  | cons id later induction =>
      obtain ⟨fresh, distinct⟩ := List.nodup_cons.mp distinct
      obtain ⟨answer, edited, begun, rearmed, told⟩ :=
        beginEdit_rearmed allQuiet id (.rearm id later outcomes :: frames)
      let waits : Frame := .rearm id later outcomes
      let ended : Session :=
        { edited with calls := edited.calls - 1, control := .answer answer (waits :: frames) }
      have heldEdited : edited.held = true := by
        rw [rearmed.rest]
        exact held
      have first : Rearmed session [id] ended := rearmed.endCall _
      have ends : (edited.answering answer (.call :: waits :: frames)).proceed = ended :=
        proceed_call heldEdited answer (waits :: frames)
      have next : ended.proceed = ended.rearmNext later
          (outcomes ++ ((session.fate id).outcome?.map (id, ·)).toList) frames := by
        rw [show (session.fate id).outcome? = answer.outcome? from told.symm, ← resume_rearm]
        rfl
      have heldEnded : ended.held = true := heldEdited
      obtain ⟨final, moved, others⟩ := induction heldEnded (first.quiet allQuiet).2 distinct
        (outcomes ++ ((session.fate id).outcome?.map (id, ·)).toList)
      refine ⟨final, ?_, first.trans others allQuiet (List.singleton_disjoint.mpr fresh)⟩
      have fates : ended.outcomes later = session.outcomes later := by
        unfold Session.outcomes
        refine List.filterMap_congr fun other member => ?_
        rw [first.fate allQuiet fun earlier => fresh (List.mem_singleton.mp earlier ▸ member)]
      rw [rearmNext, begun, List.length_cons, Nat.mul_succ, List.replicate_succ,
        List.replicate_succ, moves?_proceed rfl, ends, moves?_proceed rfl, next, moved, fates,
        outcomes_cons, List.append_assoc]

/-- What is being carried out comes to its end while nothing else happens. -/
structure EndsIn (session final : Session) : Prop where
  idle : final.control = .idle
  moves : ∃ steps, session.moves? (List.replicate steps .proceed) = some final

/-- What is being carried out has one end only. -/
theorem EndsIn.unique {twin : Session} (first : session.EndsIn final)
    (second : session.EndsIn twin) : twin = final := by
  obtain ⟨idle, steps, reached⟩ := first
  obtain ⟨idleTwin, stepsTwin, reachedTwin⟩ := second
  have stops : ∀ {session final : Session} {steps : Nat}, session.control = .idle →
      session.moves? (List.replicate steps .proceed) = some final → final = session := by
    intro session final steps idle reached
    cases steps with
    | zero => exact (Option.some.inj reached).symm
    | succ steps =>
        obtain ⟨_, moved, _⟩ := moves?_cons_iff.mp reached
        simp [move?, isIdle, idle] at moved
  rcases Nat.le_total steps stepsTwin with fewer | fewer
  · rw [← Nat.add_sub_cancel' fewer, ← List.replicate_append_replicate] at reachedTwin
    obtain ⟨middle, earlier, later⟩ := moves?_append_iff.mp reachedTwin
    cases reached.symm.trans earlier
    exact stops idle later
  · rw [← Nat.add_sub_cancel' fewer, ← List.replicate_append_replicate] at reached
    obtain ⟨middle, earlier, later⟩ := moves?_append_iff.mp reached
    cases reachedTwin.symm.trans earlier
    exact (stops idleTwin later).symm

/-- The host is told the answer of its call. -/
theorem endsIn_of_answering (steps : Nat) {answer : Answer} (held : final.held = true)
    (reached : session.moves? (List.replicate steps .proceed) =
      some (final.answering answer [.call, .host])) :
    session.EndsIn { final with calls := final.calls - 1, answer, control := .idle } where
  idle := rfl
  moves := by
    refine ⟨steps + 3, ?_⟩
    rw [← List.replicate_append_replicate]
    refine moves?_append_iff.mpr ⟨_, reached, ?_⟩
    simp only [List.replicate]
    rw [moves?_proceed rfl, proceed_call held]
    rfl

def withSettings (session : Session) (settings : Settings) : Session :=
  { session with settings }

/-- The host changes the settings, and the documents are enumerated in some order. -/
def adopt (session : Session) (settings : Settings) (ids : List DocumentId) : Session :=
  (session.act (.reconfigure settings)).reconfigure settings ids [.host]

theorem moves?_adopt (idle : session.control = .idle) (held : session.held = true)
    (settings : Settings) :
    session.moves? [.act (.reconfigure settings), .proceed] =
      some (session.adopt settings session.registry.ids) := by
  refine moves?_cons_iff.mpr
    ⟨session.act (.reconfigure settings), if_pos (decide_eq_true idle), ?_⟩
  have performed : (session.act (.reconfigure settings)).proceed =
      session.adopt settings session.registry.ids := by
    apply if_neg
    simp [act, held]
  rw [moves?_proceed rfl, performed]
  rfl

/-- Settings with a fault change nothing. -/
theorem adopt_rejected {settings : Settings} {error : HighlightError}
    (rejected : settings.validate = .error error) (idle : session.control = .idle)
    (held : session.held = true) (ids : List DocumentId) :
    (session.adopt settings ids).EndsIn { session with answer := .failure error } := by
  let called := (session.act (.reconfigure settings)).beginCall
  have answered : (session.adopt settings ids).moves? [] =
      some (called.answering (.failure error) [.call, .host]) := by
    unfold adopt reconfigure
    rw [rejected]
    rfl
  have heldCall : called.held = true := held
  have ends := endsIn_of_answering 0 heldCall answered
  rw [← idle] at ends
  exact ends

/-- Settings without a fault are followed by edits of all documents. -/
theorem adopt_accepted {settings : Settings} (accepted : settings.validate = .ok ())
    (held : session.held = true)
    (allQuiet : ∀ source ∈ session.sources, source.isQuiet = true)
    {ids : List DocumentId} (distinct : ids.Nodup) :
    ∃ edited,
      (session.withSettings settings).Rearmed ids edited ∧ edited.control = .idle ∧
      (session.adopt settings ids).EndsIn
        { edited with answer := .outcomes ((session.withSettings settings).outcomes ids) } := by
  let called := ((session.act (.reconfigure settings)).withSettings settings).beginCall
  have heldCall : called.held = true := held
  have quietCall : ∀ source ∈ called.sources, source.isQuiet = true := allQuiet
  obtain ⟨final, reached, rearmed⟩ :=
    rearmNext_rearmed heldCall quietCall distinct [] [.call, .host]
  have heldFinal : final.held = true := by
    rw [rearmed.rest]
    exact held
  have ended := rearmed.endCall .idle
  refine ⟨_, ⟨ended.ids, ended.find?, ended.runs, ended.sources, ended.metrics,
    ended.notices, ended.rest⟩, rfl, ?_⟩
  rw [adopt, reconfigure_valid accepted]
  exact endsIn_of_answering _ heldFinal reached

end Session

end LogTint
