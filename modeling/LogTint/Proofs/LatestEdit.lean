import LogTint.Proofs.Idleness
import LogTint.Proofs.Publication

/-!
# No edit is lost

An edit may be overtaken by a later one but is never dropped.  Once a document
whose text stays the same has been edited, or its highlights have been called
for, every state of it leads to the highlights of that text: while its edit is
owed or its latest run goes on they are on their way, and when it is idle they
have been delivered, unless the text is over the ceiling.
-/

namespace LogTint

namespace Source

/-- Whether a document answers the length of its text, however it is edited. -/
def CountsChars (document : Source) : Prop :=
  document.lengthRule = .counted ∨
    document.lengthRule = .tracked ∧
      document.buffer.chars = document.buffer.text.length

variable {document : Source}

theorem CountsChars.length (counts : document.CountsChars) :
    document.length = document.text.length := by
  rcases counts with counted | ⟨tracked, chars⟩
  · rw [Source.length, counted]
  · rw [Source.length, tracked]
    exact chars

theorem CountsChars.congr {other : Source} (counts : document.CountsChars)
    (same : document.content = other.content) : other.CountsChars := by
  obtain ⟨buffer, lengthRule⟩ := Prod.mk.inj same
  unfold CountsChars
  rw [← buffer, ← lengthRule]
  exact counts

theorem CountsChars.rewrite {change : Buffer → Buffer} (counts : document.CountsChars)
    (how : Buffer.Rewriting change) :
    CountsChars { document with buffer := change document.buffer } := by
  refine counts.imp_right (And.imp_right fun chars => ?_)
  cases how with
  | replace text => rfl
  | append text => simp [Buffer.append, chars]

end Source

/-- A run that goes on delivers the highlights of a text under some settings. -/
structure Run.Serves (settings : Settings) (source : SourceId) (text : Text)
    (run : Run) : Prop where
  source : run.source = source
  config : run.config = settings.workerConfig
  texts : ∀ read, run.phase.text? = some read → read = text
  unbroken : ∀ reason, run.phase ≠ .failed reason

namespace Session

variable {debts after : Debts} {session final : Session} {kind : EffectKind}
  {id : DocumentId} {source : SourceId} {text : Text} {generation : Nat}

/-- Whether every document of the host answers the length of its text. -/
def CountsChars (session : Session) : Prop :=
  ∀ document ∈ session.sources, document.CountsChars

theorem CountsChars.congr (counts : session.CountsChars)
    (contents : final.sources.map Source.content = session.sources.map Source.content) :
    final.CountsChars := by
  intro document member
  obtain ⟨earlier, earlierMember, same⟩ :=
    List.mem_map.mp (contents ▸ List.mem_map_of_mem member)
  exact (counts earlier earlierMember).congr same

theorem CountsChars.rewrites {move : Move} (counts : session.CountsChars)
    (rewrites : session.Rewrites move final)
    (created : ∀ document, move = .create document → document.CountsChars) :
    final.CountsChars := by
  intro document member
  cases rewrites with
  | create added =>
      rcases List.mem_append.mp member with earlier | last
      · exact counts document earlier
      · rw [List.mem_singleton.mp last]
        exact created added rfl
  | @change source change frames how =>
      obtain ⟨index, found⟩ := List.mem_iff_getElem?.mp member
      dsimp only [answering, modifySource] at found
      rw [List.getElem?_modify, Option.map_eq_map, Option.map_eq_some_iff] at found
      obtain ⟨earlier, foundBefore, rfl⟩ := found
      have countsBefore := counts earlier (List.mem_of_getElem? foundBefore)
      split
      · exact countsBefore.rewrite how
      · exact countsBefore

theorem countsChars_of_move {move : Move} (coherent : Coherent session.debts session)
    (moved : session.move? move = some final) (counts : session.CountsChars)
    (created : ∀ document, move = .create document → document.CountsChars) :
    final.CountsChars := by
  obtain ⟨kind, marked, admits⟩ := (move?_moved coherent moved).marked
  by_cases rewriting : kind = .rewriting
  · subst rewriting
    exact counts.rewrites admits created
  · exact counts.congr (marked.contents rewriting coherent)

theorem countsChars_of_moves {moves : List Move}
    (reached : session.moves? moves = some final)
    (coherent : Coherent session.debts session) (counts : session.CountsChars)
    (created : ∀ document, .create document ∈ moves → document.CountsChars) :
    final.CountsChars := by
  induction moves generalizing session with
  | nil =>
      cases reached
      exact counts
  | cons move moves induction =>
      obtain ⟨middle, moved, rest⟩ := moves?_cons_iff.mp reached
      refine induction rest (coherent.ofEffects (effects_of_move coherent moved)) ?_
        fun document member => created document (List.mem_cons_of_mem _ member)
      exact countsChars_of_move coherent moved counts fun document same =>
        created document (same ▸ List.mem_cons_self)

/-! ## How an edit is answered -/

/-- The highlights of a text were delivered last, unless the text is over the
ceiling. -/
def Delivered (session : Session) (id : DocumentId) (generation : Nat) (text : Text) :
    Prop :=
  session.lastDelivery? id =
      some ⟨generation, text,
        Highlights.compute text session.settings.highlightConfig⟩ ∨
    session.settings.maxChars < text.length

/-- The latest edit of a document has been answered with the highlights of a
text, or its run goes on. -/
structure Answers (session : Session) (id : DocumentId) (text : Text) (entry : Entry) :
    Prop where
  idle : entry.state = .idle → session.Delivered id entry.generation text
  runs : ∀ run ∈ session.runs, run.key = (id, entry.generation) →
    run.Serves session.settings entry.source text

/-- The session is in order, and the document with a number is one of the host
that has a given text. -/
structure Steady (id : DocumentId) (source : SourceId) (text : Text) (debts : Debts)
    (session : Session) : Prop where
  coherent : Coherent debts session
  exact_ : session.Exact
  counts : session.CountsChars
  known : id.number < session.nextId
  assigned : ∀ entry, session.registry.find? id = some entry → entry.source = source
  text : session.textOf? source = some text

namespace Steady

theorem document (steady : Steady id source text debts session) {document : Source}
    (found : session.sources[source]? = some document) :
    document.text = text ∧ document.length = text.length := by
  have sameText := steady.text
  rw [textOf?, found] at sameText
  have same : document.text = text := Option.some.inj sameText
  have counts := steady.counts document (List.mem_of_getElem? found)
  exact ⟨same, by rw [counts.length, same]⟩

theorem keep (steady : Steady id source text debts session)
    (effect : Effect kind (debts, session) (after, final)) (quiet : kind ≠ .rewriting) :
    Steady id source text after final := by
  have descent := effect.descent steady.coherent
  have contents := (effect.surroundings steady.coherent).contents.resolve_left quiet
  refine ⟨steady.coherent.ofEffect effect, steady.exact_.keep effect steady.coherent,
    steady.counts.congr contents, Nat.lt_of_lt_of_le steady.known descent.nextId,
    ?_, ?_⟩
  · intro entry found
    rcases descent.entries found with new | ⟨earlier, foundBefore, _, sameSource⟩
    · exact absurd new (Nat.ne_of_lt steady.known)
    · exact sameSource.trans (steady.assigned earlier foundBefore)
  · exact (textOf?_of_contents contents source).trans steady.text

/-- What the latest run of a document stems from serves it if the run does. -/
theorem serves {run : Run} (steady : Steady id source text debts session)
    (here : run.id = id) (stems : run.StemsFrom kind session)
    (unbroken : kind ≠ .breakdown run.key)
    (served : ∀ earlier ∈ session.runs, earlier.key = run.key →
      earlier.Serves session.settings source text) :
    run.Serves session.settings source text := by
  cases stems with
  | @kept earlier member key sameSource sameConfig phase =>
      have before := served earlier member key.symm
      refine ⟨sameSource.trans before.source, sameConfig.trans before.config, ?_, ?_⟩
      · intro read holds
        rcases phase with same | bare
        · exact before.texts read (same ▸ holds)
        · cases (Phase.text?_of_isBare bare).symm.trans holds
      · intro reason failed
        rcases phase with same | bare
        · exact before.unbroken reason (same ▸ failed)
        · rw [failed] at bare
          cases bare
  | @read earlier document member key sameSource sameConfig found within phase =>
      have before := served earlier member key.symm
      have fromSource := sameSource.trans before.source
      refine ⟨fromSource, sameConfig.trans before.config, ?_, ?_⟩
      · intro read holds
        rw [phase] at holds
        cases holds
        exact (steady.document (fromSource ▸ found)).1
      · intro reason failed
        cases phase.symm.trans failed
  | @computed earlier read member key sameSource sameConfig computing phase =>
      have before := served earlier member key.symm
      refine ⟨sameSource.trans before.source, sameConfig.trans before.config, ?_, ?_⟩
      · intro other holds
        rw [phase] at holds
        cases holds
        exact before.texts read (by rw [computing, Phase.text?])
      · intro reason failed
        cases phase.symm.trans failed
  | broken member key sameSource sameConfig breakdown => exact absurd breakdown unbroken
  | @fresh entry found generation sameSource sameConfig bare =>
      refine ⟨sameSource.trans (steady.assigned entry (here ▸ found)), sameConfig,
        ?_, ?_⟩
      · intro read holds
        cases (Phase.text?_of_isBare bare).symm.trans holds
      · intro reason failed
        rw [failed] at bare
        cases bare

/-- A document that comes to be idle has got what its latest run served it. -/
theorem delivered {entry : Entry} (steady : Steady id source text debts session)
    (idles : session.Idles final id entry) (assigned : entry.source = source)
    (settings : final.settings = session.settings)
    (still : ∀ earlier, session.registry.find? id = some earlier →
      earlier.state = .idle → earlier.generation = entry.generation →
        session.Delivered id entry.generation text)
    (served : ∀ run ∈ session.runs, run.key = (id, entry.generation) →
      run.Serves session.settings source text) :
    final.Delivered id entry.generation text := by
  unfold Delivered
  rw [settings]
  cases idles with
  | still found idle generation told =>
      rw [told]
      exact still _ found idle generation
  | registered new => exact absurd new (Nat.ne_of_lt steady.known)
  | bypassed measured above =>
      rw [assigned] at measured
      rw [(steady.document measured).2] at above
      exact .inr above
  | @overrun run document member key measured above =>
      have serves := served run member key
      rw [serves.source] at measured
      rw [serves.config, (steady.document measured).1] at above
      exact .inr (Text.exceeds_iff.mp above)
  | @published run read highlights lookup member key computed told =>
      have serves := served run member key
      have sameText := serves.texts read (by rw [computed, Phase.text?])
      have exact_ := (steady.exact_.runs run member).computed _ _ _ computed
      left
      rw [told, exact_, sameText, serves.config]
      rfl
  | reported member key failed =>
      exact absurd failed ((served _ member key).unbroken _)

end Steady

/-- A document is steady, and its latest edit is owed or answered.  Edits of
other generations than the one in question are left out. -/
structure Follows (id : DocumentId) (source : SourceId) (text : Text)
    (generation : Nat) (debts : Debts) (session : Session) : Prop where
  steady : Steady id source text debts session
  answered : id ∈ debts.edits ∨
    ∀ entry, session.registry.find? id = some entry → entry.generation = generation →
      session.Answers id text entry

theorem Follows.keep (follows : Follows id source text generation debts session)
    (effect : Effect kind (debts, session) (after, final)) (quiet : kind ≠ .rewriting)
    (unbroken : kind ≠ .breakdown (id, generation)) :
    Follows id source text generation after final := by
  obtain ⟨steady, answered⟩ := follows
  have descent := effect.descent steady.coherent
  refine ⟨steady.keep effect quiet, ?_⟩
  by_cases owed : id ∈ after.edits
  · exact .inl owed
  refine .inr fun entry found sameGeneration => ?_
  subst sameGeneration
  obtain ⟨earlier, foundBefore, ahead, sameSource⟩ :=
    (descent.entries found).resolve_left (Nat.ne_of_lt steady.known)
  have assigned := sameSource.trans (steady.assigned earlier foundBefore)
  have settings : final.settings = session.settings :=
    descent.settings.resolve_right fun rearmed => owed (rearmed foundBefore)
  -- A document whose generation stays the same was owed no edit.
  have answeredBefore : earlier.generation = entry.generation →
      session.Answers id text earlier := by
    intro same
    refine answered.resolve_left ?_ earlier foundBefore same
    intro owedBefore
    obtain ⟨other, foundOther, less⟩ :=
      (descent.edits id owedBefore).resolve_left owed entry found
    cases foundBefore.symm.trans foundOther
    omega
  have served : ∀ run ∈ session.runs, run.key = (id, entry.generation) →
      run.Serves session.settings source text := by
    intro run member key
    obtain ⟨here, current⟩ := Prod.mk.inj key
    have behind := (steady.coherent.bounded run member (here ▸ foundBefore)).1
    have same : earlier.generation = entry.generation := by omega
    rw [← steady.assigned earlier foundBefore]
    exact (answeredBefore same).runs run member (same ▸ key)
  constructor
  case idle =>
    intro idle
    refine steady.delivered (effect.idles steady.coherent found idle) assigned settings
      ?_ served
    intro other foundOther idleBefore same
    cases foundBefore.symm.trans foundOther
    rw [← same]
    exact (answeredBefore same).idle idleBefore
  case runs =>
    intro run member key
    rw [settings, assigned]
    exact steady.serves (congrArg Prod.fst key) (descent.runs run member)
      (key ▸ unbroken) (key ▸ served)

/-! ## Moves and histories -/

/-- The host changes no more than a document, and its text is what it was. -/
theorem Steady.rewrites {move : Move}
    (steady : Steady id source text session.debts session)
    (rewrites : session.Rewrites move final) (moved : session.move? move = some final)
    (created : ∀ document, move = .create document → document.CountsChars)
    (same : final.textOf? source = some text) :
    Steady id source text final.debts final := by
  have reached := moves?_singleton moved
  have registry : final.registry = session.registry := by cases rewrites <;> rfl
  have nextId : final.nextId = session.nextId := by cases rewrites <;> rfl
  exact ⟨coherent_of_moves reached steady.coherent,
    exact_of_moves reached steady.coherent steady.exact_,
    steady.counts.rewrites rewrites created, nextId ▸ steady.known,
    registry ▸ steady.assigned, same⟩

theorem Follows.move {move : Move}
    (follows : Follows id source text generation session.debts session)
    (moved : session.move? move = some final)
    (created : ∀ document, move = .create document → document.CountsChars)
    (same : final.textOf? source = some text)
    (unbroken : ∀ reason, move ≠ .fail id generation reason) :
    Follows id source text generation final.debts final := by
  obtain ⟨kind, marked, admits⟩ := (move?_moved follows.steady.coherent moved).marked
  by_cases rewriting : kind = .rewriting
  · subst rewriting
    refine ⟨follows.steady.rewrites admits moved created same, ?_⟩
    have answered := follows.answered
    cases admits with
    | create document =>
        refine answered.imp_right fun answers entry found sameGeneration => ?_
        obtain ⟨idle, runs⟩ := answers entry found sameGeneration
        exact ⟨idle, runs⟩
    | change how waiting =>
        subst waiting
        refine answered.imp_right fun answers entry found sameGeneration => ?_
        obtain ⟨idle, runs⟩ := answers entry found sameGeneration
        exact ⟨idle, runs⟩
  · refine marked.induct (Follows id source text generation)
      (fun which effect follows => ?_) follows
    rcases which with rfl | rfl
    · exact follows.keep effect nofun nofun
    · refine follows.keep effect rewriting ?_
      rintro rfl
      obtain ⟨reason, fails⟩ := admits
      exact unbroken reason fails

/-- The text of a document is the same all through a history. -/
def TextStays (session : Session) (moves : List Move) (source : SourceId)
    (text : Text) : Prop :=
  ∀ sooner, sooner <+: moves → ∀ later, session.moves? sooner = some later →
    later.textOf? source = some text

theorem textStays_cons_iff {move : Move} {moves : List Move} :
    session.TextStays (move :: moves) source text ↔
      session.textOf? source = some text ∧
        ∀ middle, session.move? move = some middle →
          middle.TextStays moves source text := by
  constructor
  · intro stays
    refine ⟨stays [] List.nil_prefix session rfl, fun middle moved sooner shorter => ?_⟩
    intro later reached
    exact stays (move :: sooner) (List.cons_prefix_cons.mpr ⟨rfl, shorter⟩) later
      (moves?_cons_iff.mpr ⟨middle, moved, reached⟩)
  · rintro ⟨now, stays⟩ sooner shorter later reached
    rcases List.prefix_cons_iff.mp shorter with rfl | ⟨others, rfl, inside⟩
    · cases reached
      exact now
    · obtain ⟨middle, moved, rest⟩ := moves?_cons_iff.mp reached
      exact stays middle moved others inside later rest

theorem TextStays.now {moves : List Move}
    (stays : session.TextStays moves source text) :
    session.textOf? source = some text :=
  stays [] List.nil_prefix session rfl

theorem follows_of_moves {moves : List Move}
    (follows : Follows id source text generation session.debts session)
    (reached : session.moves? moves = some final)
    (created : ∀ document, .create document ∈ moves → document.CountsChars)
    (stays : session.TextStays moves source text)
    (unbroken : ∀ reason, .fail id generation reason ∉ moves) :
    Follows id source text generation final.debts final := by
  induction moves generalizing session with
  | nil =>
      cases reached
      exact follows
  | cons move moves induction =>
      obtain ⟨middle, moved, rest⟩ := moves?_cons_iff.mp reached
      have staysLater := (textStays_cons_iff.mp stays).2 middle moved
      refine induction (follows.move moved ?_ staysLater.now ?_) rest ?_ staysLater ?_
      · exact fun document same => created document (same ▸ List.mem_cons_self)
      · exact fun reason fails => unbroken reason (fails ▸ List.mem_cons_self)
      · exact fun document member => created document (List.mem_cons_of_mem _ member)
      · exact fun reason member => unbroken reason (List.mem_cons_of_mem _ member)

/-- A move by which a document is edited, or its highlights are called for. -/
inductive Asks (session : Session) (id : DocumentId) : Move → Prop where
  | edit {frames} (held : session.held = true)
      (begins : session.control = .perform (.edit id) frames) :
      Asks session id .proceed
  | startNow {frames} (held : session.held = true)
      (begins : session.control = .perform (.startNow id) frames) :
      Asks session id .proceed
  | highlightNow (held : session.held = true) : Asks session id (.highlightNow id)
  /-- Every tracked document is edited when the settings change. -/
  | reconfigure {settings frames} (held : session.held = true)
      (valid : settings.validate = .ok ())
      (begins : session.control = .perform (.reconfigure settings) frames) :
      Asks session id .proceed
  | rearm {answer other rest outcomes frames}
      (goesOn : session.control =
        .answer answer (.rearm other (id :: rest) outcomes :: frames)) :
      Asks session id .proceed

/-- A move that asks for a document owes it an edit before it edits it. -/
theorem Asks.owes {call : Move} (asks : session.Asks id call)
    (moved : session.move? call = some final)
    (tracked : session.registry.contains id = true) :
    ∃ debts between, id ∈ debts.edits ∧
      Inner (session.debts, session) (debts, between) ∧
      Inner (debts, between) (final.debts, final) := by
  cases asks with
  | @edit frames held begins =>
      refine ⟨session.debts.oweEdit id, session, List.mem_cons_self,
        oweEdit_inner _ session id, ?_⟩
      rw [(proceed_of_move moved).2, proceed, begins, debts_of_perform begins]
      have begun : session.perform (.edit id) frames = session.beginEdit id frames := by
        simp [perform, held]
      dsimp only
      rw [begun]
      exact beginEdit_inner session id frames
  | @startNow frames held begins =>
      refine ⟨session.debts.oweEdit id, session, List.mem_cons_self,
        oweEdit_inner _ session id, ?_⟩
      rw [(proceed_of_move moved).2, proceed, begins, debts_of_perform begins]
      have begun : session.perform (.startNow id) frames =
          session.beginNow false id frames := by
        simp [perform, held]
      dsimp only
      rw [begun]
      exact beginNow_inner session false id frames
  | highlightNow held =>
      refine ⟨session.debts.oweEdit id, session, List.mem_cons_self,
        oweEdit_inner _ session id, ?_⟩
      cases move?_makes moved with
      | highlightNow idle => exact highlightNow_inner idle held id
  | @reconfigure settings frames held valid begins =>
      refine ⟨{ Debts.ofFrames frames with
          edits := session.registry.ids ++ (Debts.ofFrames frames).edits },
        { session.beginCall with settings }, ?_, ?_, ?_⟩
      · exact List.mem_append_left _
          (Registry.mem_ids_iff.mpr (Registry.contains_iff.mp tracked))
      · rw [debts_of_perform begins]
        exact (beginCall_inner _ session).tail (.reconfigure settings)
      · rw [(proceed_of_move moved).2, proceed, begins]
        have begun : session.perform (.reconfigure settings) frames =
            session.reconfigure settings session.registry.ids frames := by
          simp [perform, held]
        dsimp only
        rw [begun, reconfigure_valid valid]
        exact rearmNext_inner _ session.registry.ids [] (.call :: frames)
  | @rearm answer other rest outcomes frames goesOn =>
      refine ⟨session.debts, session, ?_, .refl, ?_⟩
      · rw [debts_of_answer goesOn]
        exact List.mem_append_left _ List.mem_cons_self
      · rw [(proceed_of_move moved).2, proceed, goesOn, debts_of_answer goesOn]
        dsimp only [resume]
        split
        · exact rearmNext_inner session (id :: rest) _ frames
        · exact rearmNext_inner session (id :: rest) _ frames

/-- Once a document has been asked for, every idle state of it is reached through
the highlights of its text, whatever else has happened in between. -/
theorem latest_edit_delivered {settings : Settings} {cache : Option Cache}
    {earlier rest : List Move} {call : Move} {asked begun : Session} {entry : Entry}
    (sound : ∀ given, cache = some given → given.Sound)
    (created : ∀ document, .create document ∈ earlier ++ call :: rest →
      document.CountsChars)
    (reachedAsked : (initial settings cache).moves? earlier = some asked)
    (asks : asked.Asks id call) (tracked : asked.registry.contains id = true)
    (moved : asked.move? call = some begun) (reached : begun.moves? rest = some session)
    (unbroken : ∀ reason, .fail id entry.generation reason ∉ rest)
    (found : session.registry.find? id = some entry) (idle : entry.state = .idle)
    (settled : id ∉ session.debts.edits)
    (stays : begun.TextStays rest entry.source text)
    (within : text.length ≤ session.settings.maxChars) :
    session.lastDelivery? id =
      some ⟨entry.generation, text,
        Highlights.compute text session.settings.highlightConfig⟩ := by
  have start := Coherent.initial settings cache
  have coherent := coherent_of_moves reachedAsked start
  obtain ⟨entryAsked, foundAsked⟩ := Registry.contains_iff.mp tracked
  have known := coherent.known foundAsked
  obtain ⟨debts, between, owed, owing, edited⟩ := asks.owes moved tracked
  have contents :=
    (marked_of_inner (owing.trans edited)).contents nofun coherent
  have steady : Steady id entry.source text asked.debts asked := by
    refine ⟨coherent, exact_of_moves reachedAsked start (.initial settings sound),
      countsChars_of_moves reachedAsked start (List.forall_mem_nil _)
        fun document member => created document (List.mem_append_left _ member),
      known, ?_,
      (textOf?_of_contents contents entry.source).symm.trans stays.now⟩
    intro other foundOther
    obtain ⟨same, foundSame, _, source⟩ := entries_of_moves
      (moves?_cons_iff.mpr ⟨begun, moved, reached⟩) coherent known found
    cases foundOther.symm.trans foundSame
    exact source.symm
  have steadyOwed : Steady id entry.source text debts between :=
    owing.induct (Steady id entry.source text)
      (fun effect steady => steady.keep effect nofun) steady
  have follows : Follows id entry.source text entry.generation begun.debts begun :=
    edited.induct (Follows id entry.source text entry.generation)
      (fun effect follows => follows.keep effect nofun nofun) ⟨steadyOwed, .inl owed⟩
  have followsLater := follows_of_moves follows reached
    (fun document member => created document
      (List.mem_append_right _ (List.mem_cons_of_mem _ member))) stays unbroken
  have answers := followsLater.answered.resolve_left settled entry found rfl
  exact (answers.idle idle).resolve_right (Nat.not_lt.mpr within)

theorem latest_edit_delivered_of_firstCall :
    ∃ asked begun session entry,
      (initial .standard none).moves? ((firstCall ['a']).take 5) = some asked ∧
      asked.move? (.highlightNow ⟨1⟩) = some begun ∧
      begun.moves? [.proceed, .complete ⟨1⟩ 1, .poll ⟨1⟩ 1 0] = some session ∧
      session.registry.find? ⟨1⟩ = some entry ∧ entry.state = .idle ∧
      session.lastDelivery? ⟨1⟩ = some ⟨1, ['a'],
        Highlights.compute ['a'] session.settings.highlightConfig⟩ := by
  have sound : ∀ given, (none : Option Cache) = some given → given.Sound := nofun
  have reachedAsked :
      (initial .standard none).moves? ((firstCall ['a']).take 5) = some _ := rfl
  refine ⟨_, _, _, ⟨⟨1⟩, 0, .idle, 1, none⟩, reachedAsked, rfl, rfl, rfl, rfl, ?_⟩
  refine @latest_edit_delivered _ ⟨1⟩ ['a'] .standard none _
    [.proceed, .complete ⟨1⟩ 1, .poll ⟨1⟩ 1 0] (.highlightNow ⟨1⟩) _ _
    ⟨⟨1⟩, 0, .idle, 1, none⟩ sound ?_ reachedAsked (.highlightNow rfl) rfl rfl rfl ?_
    rfl rfl ?_ ?_ ?_
  · intro document member
    simp only [firstCall, List.take, List.replicate, List.cons_append, List.nil_append,
      List.mem_cons, Move.create.injEq, reduceCtorEq, List.not_mem_nil, or_false]
      at member
    subst member
    exact .inr ⟨rfl, rfl⟩
  · simp
  · exact List.not_mem_nil
  · refine textStays_cons_iff.mpr ⟨rfl, ?_⟩
    rintro _ ⟨⟩
    refine textStays_cons_iff.mpr ⟨rfl, ?_⟩
    rintro _ ⟨⟩
    refine textStays_cons_iff.mpr ⟨rfl, ?_⟩
    rintro _ ⟨⟩ sooner shorter later reached
    cases List.prefix_nil.mp shorter
    cases reached
    rfl
  · exact Nat.le_of_ble_eq_true rfl

end Session

end LogTint
