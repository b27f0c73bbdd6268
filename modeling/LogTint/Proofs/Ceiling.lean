import LogTint.Proofs.Answers
import LogTint.Proofs.Fates
import LogTint.Proofs.LatestEdit
import LogTint.Proofs.Overruns
import LogTint.Text.Bytes

/-!
# The ceiling on the length of a text

A document is judged by its length twice: when it is edited, by the length that it answers,
and when a run has taken its text, by that text.  A buffer that is edited knows its length
without counting it again, and bytes are only counted to avoid counting characters.  So both
come to the same for the same text, and a text that was short enough for an edit is short
enough for every run with the same ceiling.
-/

namespace LogTint

/-! ## Buffers that are edited -/

/-- One change of a buffer. -/
inductive Edit where
  | replace (text : Text)
  | append (text : Text)

namespace Buffer

def edit (buffer : Buffer) : Edit → Buffer
  | .replace text => buffer.replace text
  | .append text => buffer.append text

theorem append_ofText (first second : Text) :
    (ofText first).append second = ofText (first ++ second) := by
  rw [append, ofText, ofText, List.length_append]

/-- What a text has become: it, or the last replacement, with what was appended later. -/
def Outcome (start : Text) (edits : List Edit) (text : Text) : Prop :=
  ∃ (base : Text) (appended : List Text), text = base ++ appended.flatten ∧
    (base = start ∧ edits = appended.map .append ∨
      ∃ earlier, edits = earlier ++ .replace base :: appended.map .append)

/-- A buffer that was edited is as if it were made of its text. -/
theorem foldl_edit (start : Text) (edits : List Edit) :
    ∃ text, Outcome start edits text ∧ edits.foldl edit (ofText start) = ofText text := by
  induction edits using List.reverseRecOn with
  | nil => exact ⟨start, ⟨start, [], by simp, .inl ⟨rfl, rfl⟩⟩, rfl⟩
  | append_singleton edits last induction =>
      obtain ⟨text, ⟨base, appended, rfl, history⟩, same⟩ := induction
      rw [List.foldl_append, List.foldl_cons, List.foldl_nil, same]
      cases last with
      | replace text =>
          exact ⟨text, ⟨text, [], by simp, .inr ⟨edits, rfl⟩⟩, rfl⟩
      | append text =>
          refine ⟨base ++ (appended ++ [text]).flatten, ⟨base, appended ++ [text], rfl, ?_⟩,
            ?_⟩
          · rcases history with ⟨first, rfl⟩ | ⟨earlier, rfl⟩
            · exact .inl ⟨first, by rw [List.map_append, List.map_singleton]⟩
            · exact .inr ⟨earlier, by simp⟩
          · rw [edit, append_ofText]
            simp

end Buffer

namespace Source

/-- A document of the host after some changes of its buffer. -/
def shared (start : Text) (edits : List Edit) : Source :=
  { quiet start true .tracked with buffer := edits.foldl Buffer.edit (.ofText start) }

/-- A document holds the outcome of some changes, and whoever counts it comes to the
same. -/
structure Counted (start : Text) (edits : List Edit) (document : Source) : Prop where
  outcome : Buffer.Outcome start edits document.text
  chars : document.length = document.text.length
  fixed : document.length = (quiet document.text false .tracked).length
  recounted : document.length = { document with lengthRule := .counted }.length
  size : document.buffer.size = (Text.bytes document.text).length

theorem counted_shared (start : Text) (edits : List Edit) :
    Counted start edits (shared start edits) := by
  obtain ⟨text, outcome, same⟩ := Buffer.foldl_edit start edits
  have made : shared start edits = quiet text true .tracked := by
    rw [shared, same]
    rfl
  rw [made]
  exact ⟨outcome, rfl, rfl, rfl, (Text.length_bytes text).symm⟩

end Source

/-! ## The length that an edit is judged by -/

namespace Session

variable {before session begun final : Session} {id : DocumentId} {entry : Entry}
  {document : Source} {source : SourceId}

/-- Whether a document of the host answers the length of its text. -/
def Counts (session : Session) (source : SourceId) : Prop :=
  ∃ document, session.sources[source]? = some document ∧ document.CountsChars

theorem Counts.rewrites {move : Move} (counts : session.Counts source)
    (rewrites : session.Rewrites move final) : final.Counts source := by
  obtain ⟨document, read, counting⟩ := counts
  cases rewrites with
  | create added =>
      obtain ⟨inside, _⟩ := List.getElem?_eq_some_iff.mp read
      exact ⟨document, (List.getElem?_append_left inside).trans read, counting⟩
  | @change other change frames how =>
      refine ⟨_, (List.getElem?_modify ..).trans (congrArg _ read), ?_⟩
      split
      · exact counting.rewrite how
      · exact counting

theorem counts_of_moves {moves : List Move} (reached : session.moves? moves = some final)
    (coherent : Coherent session.debts session) (counts : session.Counts source) :
    final.Counts source := by
  refine (moves?_keeps (fun later => Coherent later.debts later ∧ later.Counts source) ?_
    reached ⟨coherent, counts⟩).2
  rintro session move after moved ⟨coherent, counts⟩
  refine ⟨coherent_of_moves (moves?_singleton moved) coherent, ?_⟩
  obtain ⟨kind, marked, admits⟩ := (move?_moved coherent moved).marked
  by_cases rewriting : kind = .rewriting
  · subst rewriting
    exact counts.rewrites admits
  · obtain ⟨document, read, counting⟩ := counts
    have contents := congrArg (·[source]?) (marked.contents rewriting coherent)
    rw [List.getElem?_map, List.getElem?_map, read, Option.map_some,
      Option.map_eq_some_iff] at contents
    obtain ⟨later, readLater, same⟩ := contents
    exact ⟨later, readLater, counting.congr same.symm⟩

/-- A document that counts its characters when it is created does so ever after. -/
theorem counts_of_created {created : Source} {moves : List Move}
    (counting : created.CountsChars) (coherent : Coherent before.debts before)
    (reached : before.moves? (.create created :: moves) = some final) :
    final.Counts before.sources.length := by
  obtain ⟨middle, moved, rest⟩ := moves?_cons_iff.mp reached
  refine counts_of_moves rest (coherent_of_moves (moves?_singleton moved) coherent) ?_
  obtain ⟨_, same⟩ := Option.ite_none_right_eq_some.mp moved
  cases same
  exact ⟨created, List.getElem?_concat_length, counting⟩

/-- Whether an edit of a document is next to be judged by its length.  The document has
acted, or it does not act when it is asked. -/
inductive Measures (session : Session) (id : DocumentId) (document : Source) : Prop where
  | asked (next : session.nextEdit? = some id) (alive : document.isAlive = true)
      (silent : document.beginLength.1 = [])
  | acted {answer source frames}
      (waiting : session.control = .answer answer (.measured id source :: frames))

/-- An edit is finished while the entries, the runs and the document are as before. -/
def Finishes (session : Session) (id : DocumentId) (source : SourceId)
    (document : Source) (begun : Session) : Prop :=
  ∃ (middle : Session) (frames : List Frame) (asked : Source),
    begun = middle.finishEdit id source frames ∧ middle.registry = session.registry ∧
      middle.runs = session.runs ∧ middle.nextId = session.nextId ∧
      middle.sources[source]? = some asked ∧ asked.content = document.content

/-- The length of a document that does not act is known at once. -/
theorem finishes_beginEdit (found : session.registry.find? id = some entry)
    (read : session.sources[entry.source]? = some document) (alive : document.isAlive = true)
    (silent : document.beginLength.1 = []) (frames : List Frame) :
    session.Finishes id entry.source document (session.beginEdit id frames) := by
  have living : (session.beginCall.count .edit).sources[entry.source]?.filter
      Source.isAlive = some document := Option.filter_eq_some_iff.mpr ⟨read, alive⟩
  refine ⟨(session.beginCall.count .edit).modifySource entry.source
    fun _ => document.beginLength.2, .call :: frames, document.beginLength.2, ?_, rfl, rfl, rfl,
    modifySource_found _ read, rfl⟩
  unfold beginEdit
  dsimp only
  rw [show session.beginCall.registry.find? id = some entry from found]
  dsimp only
  rw [living]
  dsimp only
  rw [silent, List.isEmpty_nil, if_pos rfl]

theorem Measures.finishes (measures : session.Measures id document)
    (coherent : Coherent session.debts session)
    (found : session.registry.find? id = some entry)
    (read : session.sources[entry.source]? = some document)
    (moved : session.move? .proceed = some begun) :
    session.Finishes id entry.source document begun := by
  obtain ⟨_, rfl⟩ := proceed_of_move moved
  cases measures with
  | @acted answer source frames waiting =>
      rw [debts_of_answer waiting] at coherent
      have same : entry.source = source :=
        (coherent.lengths (id, source) List.mem_cons_self).2 found
      subst same
      refine ⟨session, frames, document, ?_, rfl, rfl, rfl, read, rfl⟩
      rw [proceed, waiting]
      rfl
  | asked next alive silent =>
      unfold proceed
      unfold nextEdit? at next
      split at next
      case h_1 edited frames waiting =>
          obtain ⟨held, same⟩ := Option.ite_none_right_eq_some.mp next
          cases same
          have performed : session.perform (.edit id) frames = session.beginEdit id frames := by
            simp [perform, held]
          rw [waiting]
          dsimp only
          rw [performed]
          exact finishes_beginEdit found read alive silent frames
      case h_2 settings frames waiting =>
          split at next
          case h_2 => cases next
          case h_1 valid =>
              obtain ⟨held, first⟩ := Option.ite_none_right_eq_some.mp next
              obtain ⟨later, ids⟩ := List.head?_eq_some_iff.mp first
              have performed : session.perform (.reconfigure settings) frames =
                  rearmNext { session.beginCall with settings } (id :: later) []
                    (.call :: frames) := by
                rw [← ids, ← reconfigure_valid valid]
                simp [perform, held]
              rw [waiting]
              dsimp only
              rw [performed]
              exact @finishes_beginEdit { session.beginCall with settings } id entry document
                found read alive silent _
      case h_3 answer other rest outcomes frames waiting =>
          obtain ⟨later, rfl⟩ := List.head?_eq_some_iff.mp next
          rw [waiting]
          dsimp only [resume]
          split
          · exact finishes_beginEdit found read alive silent _
          · exact finishes_beginEdit found read alive silent _
      case h_4 => cases next

/-! ## What the length decides -/

/-- What an edit is answered is what a run would find of the same text. -/
theorem verdict_length (settings : Settings) (text : Text) :
    settings.workerConfig.verdict text.length =
      if text.exceeds settings.maxChars then .bypassed else .scheduled := by
  simp only [WorkerConfig.verdict, Text.exceeds_iff]
  rfl

/-- The runs of a document's generation are after one source under one configuration, and
no other run is going to be of that generation. -/
structure Bound (session : Session) (key : DocumentId × Nat) (source : SourceId)
    (config : WorkerConfig) : Prop where
  known : key.1.number < session.nextId
  passed : ∀ entry, session.registry.find? key.1 = some entry → key.2 ≤ entry.generation
  runs : ∀ run ∈ session.runs, run.key = key → run.source = source ∧ run.config = config

section Bound

variable {key : DocumentId × Nat} {config : WorkerConfig}

theorem Bound.keep {debts after : Debts} {kind : EffectKind}
    (bound : session.Bound key source config)
    (effect : Effect kind (debts, session) (after, final)) (coherent : Coherent debts session) :
    final.Bound key source config := by
  have descent := effect.descent coherent
  constructor
  case known => exact Nat.lt_of_lt_of_le bound.known descent.nextId
  case passed =>
    intro entry found
    rcases descent.entries found with new | ⟨earlier, foundBefore, behind, _⟩
    · exact absurd new (Nat.ne_of_lt bound.known)
    · exact Nat.le_trans (bound.passed earlier foundBefore) behind
  case runs =>
    intro run member own
    cases descent.runs run member with
    | kept earlier sameKey source config | read earlier sameKey source config
    | computed earlier sameKey source config | broken earlier sameKey source config =>
        obtain ⟨sourceBefore, configBefore⟩ :=
          bound.runs _ earlier (sameKey.symm.trans own)
        exact ⟨source.trans sourceBefore, config.trans configBefore⟩
    | fresh found generation =>
        subst own
        have behind := bound.passed _ found
        have next : run.key.2 = _ + 1 := generation
        omega

theorem bound_of_moves {moves : List Move} (reached : session.moves? moves = some final)
    (coherent : Coherent session.debts session) (bound : session.Bound key source config) :
    final.Bound key source config :=
  invariant_of_moves (fun _ later => later.Bound key source config)
    (fun effect coherent bound => bound.keep effect coherent) reached coherent bound

end Bound

theorem applyEdit_verdict (found : session.registry.find? id = some entry) (chars : Nat) :
    (session.applyEdit id chars).1 =
      .outcome (session.settings.workerConfig.verdict chars) := by
  unfold applyEdit WorkerConfig.verdict
  rw [found]
  dsimp only
  split <;> rfl

theorem applyEdit_scheduled (found : session.registry.find? id = some entry) {chars : Nat}
    (within : chars ≤ session.settings.maxChars) :
    (session.applyEdit id chars).2 =
      ((session.supersede id).setState id .pending).arm id entry.source
        (entry.generation + 1) session.settings.workerConfig := by
  have short : ¬session.settings.workerConfig.maxChars < chars := Nat.not_lt.mpr within
  unfold applyEdit
  rw [found]
  dsimp only
  rw [if_neg short]

theorem applyEdit_settings (distinct : Run.Distinct session.runs) (id : DocumentId)
    (chars : Nat) : (session.applyEdit id chars).2.settings = session.settings := by
  unfold applyEdit
  split
  case h_1 => rfl
  case h_2 entry found =>
      dsimp only
      split
      case isTrue =>
          obtain ⟨_, _, _, _, _, renewed⟩ := session.renew_spec distinct id .idle
          rw [renewed]
          rfl
      case isFalse =>
          obtain ⟨_, _, _, _, _, renewed⟩ := session.renew_spec distinct id .pending
          rw [renewed]
          rfl

theorem applyEdit_arms (found : session.registry.find? id = some entry) {chars : Nat}
    (within : chars ≤ session.settings.maxChars) :
    ∃ run ∈ (session.applyEdit id chars).2.runs, run.key = (id, entry.generation + 1) := by
  rw [applyEdit_scheduled found within]
  exact ⟨_, List.mem_append_right _ (List.mem_singleton_self _), rfl⟩

/-- The run that an edit arms is the only one of its generation. -/
theorem applyEdit_bound (distinct : Run.Distinct session.runs)
    (found : session.registry.find? id = some entry) (known : id.number < session.nextId)
    (unused : session.Unused id) {chars : Nat} (within : chars ≤ session.settings.maxChars) :
    (session.applyEdit id chars).2.Bound (id, entry.generation + 1) entry.source
      session.settings.workerConfig := by
  obtain ⟨registry, runs, metrics, edited, kept, renewed⟩ :=
    session.renew_spec distinct id .pending
  have armed := edited.trans (Registry.edited_modify
    (fun renewed => { renewed with armed := some (entry.generation + 1) }) (fun _ => rfl)
    registry id)
  rw [applyEdit_scheduled found within, renewed]
  constructor
  case known => exact known
  case passed =>
    intro later foundLater
    obtain ⟨earlier, foundBefore, rfl⟩ := armed.exists_of_find? foundLater
    cases found.symm.trans foundBefore
    dsimp only
    rw [if_pos rfl, if_pos rfl]
    exact Nat.le_of_eq (entry.renewed_generation .pending).symm
  case runs =>
    intro run member own
    rcases List.mem_append.mp member with other | last
    · exact absurd own (Unused.of_kept (unused found) kept run other)
    · rw [List.mem_singleton.mp last]
      exact ⟨rfl, rfl⟩

/-- An edit is answered by its length, and if it arms a run this reads on its behalf. -/
theorem Finishes.judged (finishes : session.Finishes id entry.source document begun)
    (coherent : Coherent session.debts session)
    (found : session.registry.find? id = some entry) :
    begun.verdict? =
        some (.outcome (begun.settings.workerConfig.verdict document.length)) ∧
      (document.length ≤ begun.settings.maxChars →
        (∃ run ∈ begun.runs, run.key = (id, entry.generation + 1)) ∧
          begun.Bound (id, entry.generation + 1) entry.source
            begun.settings.workerConfig) := by
  obtain ⟨middle, frames, asked, rfl, registry, runs, nextId, read, content⟩ := finishes
  let ready := middle.modifySource entry.source Source.endReading
  have length : asked.length = document.length := by
    obtain ⟨buffer, rule⟩ := Prod.mk.inj content
    simp only [Source.length, Source.text, buffer, rule]
  have finished : middle.finishEdit id entry.source frames =
      (ready.applyEdit id document.length).2.answering
        (ready.applyEdit id document.length).1 frames := by
    rw [finishEdit, read, ← length]
  have distinct : Run.Distinct ready.runs := runs ▸ coherent.distinct
  have tracked : ready.registry.find? id = some entry := registry ▸ found
  have unused : ready.Unused id := by
    intro other foundOther run member
    exact unused_of_coherent coherent id (registry ▸ foundOther) run (runs ▸ member)
  rw [finished]
  have settings : ((ready.applyEdit id document.length).2.answering
      (ready.applyEdit id document.length).1 frames).settings = ready.settings :=
    ready.applyEdit_settings distinct id document.length
  refine ⟨?_, fun within => ?_⟩
  · rw [settings, ← ready.applyEdit_verdict tracked]
    rfl
  · rw [settings] at within ⊢
    have bound := ready.applyEdit_bound distinct tracked (nextId ▸ coherent.known found) unused
      within
    exact ⟨ready.applyEdit_arms tracked within, bound.known, bound.passed, bound.runs⟩

/-- An edit of a text within the ceiling arms a run, and no run with the same ceiling finds
this text too long. -/
structure Accepts (begun : Session) (key : DocumentId × Nat) (source : SourceId)
    (text : Text) : Prop where
  armed : ∃ run ∈ begun.runs, run.key = key
  /-- The run keeps the settings of the edit. -/
  own : ∀ {rest later}, begun.moves? rest = some later →
    ∀ run ∈ later.runs, run.key = key →
      run.source = source ∧ run.config = begun.settings.workerConfig
  spared : ∀ {rest later move final run}, begun.moves? rest = some later →
    later.move? move = some final → later.MayRead run move →
      run.config.maxChars = begun.settings.maxChars →
        later.textOf? run.source = some text → final.overrunTally = later.overrunTally
  /-- Whatever is found too long is another text or has another ceiling. -/
  others : ∀ {rest later move final}, begun.moves? rest = some later →
    later.move? move = some final → final.overrunTally ≠ later.overrunTally →
      ∃ run, later.MayRead run move ∧
        (run.config.maxChars = begun.settings.maxChars →
          later.textOf? run.source ≠ some text)

theorem Bound.accepts {key : DocumentId × Nat} {source : SourceId} {text : Text}
    (bound : begun.Bound key source begun.settings.workerConfig)
    (coherent : Coherent begun.debts begun) (armed : ∃ run ∈ begun.runs, run.key = key)
    (short : text.length ≤ begun.settings.maxChars) : begun.Accepts key source text := by
  have within {later : Session} {run : Run}
      (ceiling : run.config.maxChars = begun.settings.maxChars)
      (same : later.textOf? run.source = some text) : later.Within run := by
    intro taken read
    cases same.symm.trans read
    exact ceiling ▸ short
  refine ⟨armed, fun reached => (bound_of_moves reached coherent bound).runs, ?_, ?_⟩
  · intro rest later move final run reached moved acts ceiling same
    exact acts.overrunTally (coherent_of_moves reached coherent) moved (within ceiling same)
  · intro rest later move final reached moved changed
    obtain ⟨run, acts, long⟩ :=
      mayRead_of_overrun (coherent_of_moves reached coherent) moved changed
    exact ⟨run, acts, fun ceiling same => long (within ceiling same)⟩

/-- The ceiling is judged alike by buffers, edits and runs. -/
theorem judged_alike :
    (∀ (start : Text) (edits : List Edit),
      Source.Counted start edits (Source.shared start edits)) ∧
    (∀ (text : Text) (ceiling : Nat), text.exceeds ceiling = true ↔ ceiling < text.length) ∧
    ∀ {settings : Settings} {cache : Option Cache} {earlier later : List Move}
      {before asked begun : Session} {created document : Source} {id : DocumentId}
      {entry : Entry},
      created.CountsChars →
      (initial settings cache).moves? earlier = some before →
      before.moves? (.create created :: later) = some asked →
      asked.registry.find? id = some entry → entry.source = before.sources.length →
      asked.sources[entry.source]? = some document →
      asked.Measures id document → asked.move? .proceed = some begun →
        (document.text.exceeds begun.settings.maxChars = true ∧
            begun.verdict? = some (.outcome .bypassed)) ∨
          (document.text.exceeds begun.settings.maxChars = false ∧
            begun.verdict? = some (.outcome .scheduled) ∧
            begun.Accepts (id, entry.generation + 1) entry.source document.text) := by
  refine ⟨Source.counted_shared, fun text ceiling => Text.exceeds_iff, ?_⟩
  intro settings cache earlier later before asked begun created document id entry counting
    start reached found made read measures moved
  have coherentBefore := coherent_of_moves start (Coherent.initial settings cache)
  have coherent := coherent_of_moves reached coherentBefore
  have counts : document.CountsChars := by
    obtain ⟨held, readHeld, counting⟩ := counts_of_created counting coherentBefore reached
    rw [← made, read] at readHeld
    exact Option.some.inj readHeld ▸ counting
  obtain ⟨verdict, scheduled⟩ :=
    (measures.finishes coherent found read moved).judged coherent found
  rw [counts.length] at verdict scheduled
  rw [verdict_length] at verdict
  cases long : document.text.exceeds begun.settings.maxChars with
  | true =>
      rw [long, if_pos rfl] at verdict
      exact .inl ⟨rfl, verdict⟩
  | false =>
      rw [long, if_neg Bool.false_ne_true] at verdict
      have short : document.text.length ≤ begun.settings.maxChars := by
        rw [← Nat.not_lt, ← Text.exceeds_iff, long]
        exact Bool.false_ne_true
      obtain ⟨armed, bound⟩ := scheduled short
      have coherentBegun := coherent_of_moves (moves?_singleton moved) coherent
      exact .inr ⟨rfl, verdict, bound.accepts coherentBegun armed short⟩

theorem judged_alike_of_accents :
    ∃ asked begun,
      (initial { Settings.standard with maxChars := 2 } none).moves?
        [.create (.quiet ['é', 'é'] true .tracked), .act (.register 0), .proceed, .proceed,
          .proceed, .act (.edit ⟨1⟩)] = some asked ∧
      asked.move? .proceed = some begun ∧
      begun.verdict? = some (.outcome .scheduled) ∧
      begun.Accepts (⟨1⟩, 1) 0 ['é', 'é'] := by
  refine ⟨_, _, rfl, rfl, ?_⟩
  obtain ⟨long, _⟩ | ⟨_, scheduled, accepts⟩ :=
    @judged_alike.2.2 { Settings.standard with maxChars := 2 } none []
      [.act (.register 0), .proceed, .proceed, .proceed, .act (.edit ⟨1⟩)]
      _ _ _ (.quiet ['é', 'é'] true .tracked) (.quiet ['é', 'é'] true .tracked) ⟨1⟩
      ⟨⟨1⟩, 0, .idle, 0, none⟩ (.inr ⟨rfl, rfl⟩) rfl rfl rfl rfl rfl (.asked rfl rfl rfl)
      rfl
  · exact absurd (Text.exceeds_iff.mp long) (by decide)
  · exact ⟨scheduled, accepts⟩

end Session

end LogTint
