import LogTint.Proofs.Telling
import LogTint.Proofs.Texts
import Mathlib.Data.List.Induction

/-!
# What is delivered

Highlights are delivered of tracked documents only.  They are those of a text
that the run of the latest edit has read after that edit, under the settings of
the moment, and every delivery answers a later edit than the one before it.
-/

namespace LogTint.Session

variable {debts : Debts} {session final before after : Session} {id : DocumentId}

/-- What was delivered answers edits of before, and the runs of those edits are
over. -/
def Dated (session : Session) : Prop :=
  ∀ {time id publication}, (time, Event.highlights id publication) ∈ session.log →
    id.number < session.nextId ∧
      (∀ entry, session.registry.find? id = some entry →
        publication.generation ≤ entry.generation) ∧
      ∀ run ∈ session.runs, run.key ≠ (id, publication.generation)

/-- The run of a generation is over, and no other will get the generation. -/
def Over (session : Session) (id : DocumentId) (generation : Nat) : Prop :=
  id.number < session.nextId ∧
    (∀ entry, session.registry.find? id = some entry → generation ≤ entry.generation) ∧
    ∀ run ∈ session.runs, run.key ≠ (id, generation)

theorem Over.stays {kind : EffectKind} {after : Debts} {generation : Nat}
    (passed : session.Over id generation) (descent : Descent kind debts session after final) :
    final.Over id generation := by
  obtain ⟨known, behind, above⟩ := passed
  refine ⟨Nat.lt_of_lt_of_le known descent.nextId, ?_, ?_⟩
  · intro entry found
    rcases descent.entries found with new | ⟨earlier, foundBefore, ahead, _⟩
    · omega
    · exact Nat.le_trans (behind earlier foundBefore) ahead
  · intro run member same
    cases descent.runs run member with
    | kept earlierMember key | read earlierMember key | computed earlierMember key
    | broken earlierMember key =>
        exact above _ earlierMember (key.symm.trans same)
    | fresh found generation =>
        have here : run.id = id := congrArg Prod.fst same
        have bound := behind _ (here ▸ found)
        have sameGeneration := congrArg Prod.snd same
        simp only [Run.key] at sameGeneration
        omega

/-- What was delivered before an effect is still dated after it. -/
theorem Dated.stays {kind : EffectKind} {after : Debts} {time : Nat}
    {publication : Publication}
    (dated : session.Dated) (descent : Descent kind debts session after final)
    (delivered : (time, Event.highlights id publication) ∈ session.log) :
    final.Over id publication.generation :=
  Over.stays (dated delivered) descent

theorem Dated.keep {kind : EffectKind} {after : Debts} (dated : session.Dated)
    (effect : Effect kind (debts, session) (after, final))
    (coherent : Coherent debts session) : final.Dated := by
  have descent := effect.descent coherent
  intro time id publication delivered
  by_cases ordinary : kind = .publication
  · subst ordinary
    cases effect with
    | @publish _ _ run text highlights lookup advanced member computed advance alive =>
        obtain ⟨latest, registry, found, current, _, _, rfl⟩ :=
          advanceState?_spec advance
        have kept := removeRun_runs
          ((count { session with registry } .published).note
            (.highlights run.id ⟨run.generation, text, highlights⟩))
          coherent.distinct run
        rw [removeRun_eq] at delivered
        rcases List.mem_append.mp delivered with earlier | last
        · exact dated.stays descent earlier
        · cases List.mem_singleton.mp last
          refine ⟨Nat.lt_of_lt_of_le (coherent.known found) descent.nextId, ?_, ?_⟩
          · intro entry foundLater
            rcases descent.entries foundLater with new | ⟨earlier, foundBefore, ahead, _⟩
            · have number := coherent.known found
              omega
            · cases found.symm.trans foundBefore
              exact Nat.le_trans (Nat.le_of_eq current.symm) ahead
          · intro other member
            exact kept.keeps_of_mem member
  · obtain ⟨new, log, plain⟩ := effect.log_ordinary coherent ordinary
    rw [log] at delivered
    rcases List.mem_append.mp delivered with earlier | late
    · exact dated.stays descent earlier
    · cases plain _ late

theorem dated_of_moves {moves : List Move}
    (reached : session.moves? moves = some final)
    (coherent : Coherent session.debts session) (dated : session.Dated) :
    final.Dated :=
  invariant_of_moves (fun _ session => session.Dated)
    (fun effect coherent dated => dated.keep effect coherent) reached coherent dated

theorem over_of_moves {moves : List Move} {generation : Nat}
    (reached : session.moves? moves = some final)
    (coherent : Coherent session.debts session) (passed : session.Over id generation) :
    final.Over id generation :=
  invariant_of_moves (fun _ session => session.Over id generation)
    (fun effect coherent passed => passed.stays (effect.descent coherent)) reached coherent passed

/-! ## The move that delivers -/

/-- A run publishes a text and its highlights. -/
structure Publishes (session : Session) (run : Run) (text : Text)
    (highlights : Highlights) (entry : Entry) : Prop where
  member : run ∈ session.runs
  computed : ∃ lookup, run.phase = .computed text highlights lookup
  found : session.registry.find? run.id = some entry
  current : entry.generation = run.generation
  computing : entry.state = .computing

/-- What a move adds to the log holds at most one delivery, which comes first. -/
theorem Moved.log {move : Move} (moved : session.Moved move after)
    (coherent : Coherent session.debts session) :
    ∃ new, after.log = session.log ++ new ∧
      ((∀ noted ∈ new, noted.2.publication? = none) ∨
        ∃ run text highlights entry rest nanoseconds,
          move = .poll run.id run.generation nanoseconds ∧ session.Publishes run text highlights entry ∧
          new = (session.clock,
            .highlights run.id ⟨run.generation, text, highlights⟩) :: rest ∧
          ∀ noted ∈ rest, noted.2.publication? = none) := by
  cases moved with
  | inner effects =>
      obtain ⟨new, log, plain⟩ := effects.log_ordinary coherent
      exact ⟨new, log, .inl plain⟩
  | rewritten rewrites =>
      refine ⟨[], ?_, .inl (by simp)⟩
      rw [List.append_nil]
      cases rewrites <;> rfl
  | @brokenOff run text reason =>
      obtain ⟨_, _, broken⟩ := session.breakOff_spec coherent.distinct run reason
      exact ⟨[], by rw [broken, List.append_nil], .inl (by simp)⟩
  | unheeded exit effects =>
      obtain ⟨start, finish, earlier, sameLog, effect, later⟩ := effects
      have coherentStart := coherent.ofEffects earlier.effects
      obtain ⟨first, firstLog, firstPlain⟩ := effect.log_ordinary coherentStart nofun
      obtain ⟨rest, restLog, restPlain⟩ :=
        later.log_ordinary (coherentStart.ofEffect effect)
      refine ⟨first ++ rest, ?_, .inl fun noted member => ?_⟩
      · rw [restLog, firstLog, sameLog, List.append_assoc]
      · exact (List.mem_append.mp member).elim (firstPlain noted) (restPlain noted)
  | @published run text highlights lookup nanoseconds advanced member computed alive advance =>
      have counted := countLookup_inner session.debts session lookup nanoseconds
      have coherentCounted := coherent.ofEffects counted.effects
      have publish : Effect .publication
          (session.debts, session.countLookup lookup nanoseconds) _ :=
        .publish (by rwa [countLookup_runs]) computed advance
          (by rwa [countLookup_isAlive])
      obtain ⟨rest, log, plain⟩ :=
        (reply_inner session.debts _ run.origin run.id
          (.published (some ⟨run.generation, text, highlights⟩))).log_ordinary
            (coherentCounted.ofEffect publish)
      obtain ⟨entry, registry, found, current, computing, _, rfl⟩ :=
        advanceState?_spec advance
      rw [countLookup_registry] at found
      refine ⟨_, ?_, .inr ⟨run, text, highlights, entry, rest, nanoseconds, rfl,
        ⟨member, ⟨lookup, computed⟩, found, current, computing⟩, rfl, plain⟩⟩
      refine log.trans ?_
      rw [removeRun_eq]
      dsimp only [count, note]
      rw [countLookup_log, countLookup_clock, List.append_assoc]
      rfl

/-! ## Where the text comes from -/

/-- The text of a document of the host. -/
def textOf? (session : Session) (source : SourceId) : Option Text :=
  session.sources[source]?.map Source.text

/-- The run of a document's generation holds a text. -/
def HasText (session : Session) (id : DocumentId) (generation : Nat) (text : Text) :
    Prop :=
  ∃ run ∈ session.runs, run.key = (id, generation) ∧ run.phase.text? = some text

theorem textOf?_of_contents
    (contents : final.sources.map Source.content = session.sources.map Source.content)
    (source : SourceId) : final.textOf? source = session.textOf? source := by
  have fromContent : ∀ session : Session, session.textOf? source =
      (session.sources.map Source.content)[source]?.map (·.1.text) := by
    intro session
    rw [textOf?, List.getElem?_map, Option.map_map]
    rfl
  rw [fromContent, fromContent, contents]

/-- The documents of the host are as they were, and texts that runs hold they
held already or have read since. -/
structure ReadFrom (start : Session) (debts : Debts) (session : Session) : Prop where
  coherent : Coherent debts session
  contents : session.sources.map Source.content = start.sources.map Source.content
  texts : ∀ run ∈ session.runs, ∀ text, run.phase.text? = some text →
    start.HasText run.id run.generation text ∨ start.textOf? run.source = some text

theorem ReadFrom.keep {start : Session} {kind : EffectKind} {after : Debts}
    (readFrom : ReadFrom start debts session)
    (effect : Effect kind (debts, session) (after, final))
    (quiet : kind ≠ .rewriting) : ReadFrom start after final where
  coherent := readFrom.coherent.ofEffect effect
  contents :=
    ((effect.surroundings readFrom.coherent).contents.resolve_left quiet).trans
      readFrom.contents
  texts run member text holds := by
    have goesBack : ∀ earlier ∈ session.runs, run.key = earlier.key →
        run.source = earlier.source → earlier.phase.text? = some text →
          start.HasText run.id run.generation text ∨
            start.textOf? run.source = some text := by
      intro earlier earlierMember key source held
      rw [show run.id = earlier.id from congrArg Prod.fst key,
        show run.generation = earlier.generation from congrArg Prod.snd key, source]
      exact readFrom.texts earlier earlierMember text held
    cases (effect.descent readFrom.coherent).runs run member with
    | kept earlierMember key source config phase =>
        rcases phase with same | bare
        · exact goesBack _ earlierMember key source (same ▸ holds)
        · cases (Phase.text?_of_isBare bare).symm.trans holds
    | read earlierMember key source config found within phase =>
        rw [phase] at holds
        cases holds
        right
        rw [← textOf?_of_contents readFrom.contents, textOf?, found, Option.map_some]
    | @computed earlier read earlierMember key source config computing phase =>
        rw [phase] at holds
        cases holds
        exact goesBack earlier earlierMember key source (by rw [computing, Phase.text?])
    | broken earlierMember key source config breakdown phase =>
        rw [phase] at holds
        cases holds
    | fresh found generation source config bare =>
        cases (Phase.text?_of_isBare bare).symm.trans holds

/-- A text that a run holds after a move it held before, or has read from its
document in the course of the move. -/
theorem hasText_of_move {move : Move} {run : Run} {text : Text}
    (coherent : Coherent session.debts session)
    (moved : session.move? move = some after) (member : run ∈ after.runs)
    (holds : run.phase.text? = some text) :
    session.HasText run.id run.generation text ∨
      session.textOf? run.source = some text ∧
        after.textOf? run.source = some text := by
  obtain ⟨kind, marked, admits⟩ := (move?_moved coherent moved).marked
  by_cases rewriting : kind = .rewriting
  · subst rewriting
    have unmoved : after.runs = session.runs := by cases admits <;> rfl
    exact .inl ⟨run, unmoved ▸ member, rfl, holds⟩
  · have begun : ReadFrom session session.debts session :=
      ⟨coherent, rfl, fun run member text holds => .inl ⟨run, member, rfl, holds⟩⟩
    have ended : ReadFrom session after.debts after := by
      refine marked.induct (ReadFrom session) (fun which effect readFrom => ?_) begun
      refine readFrom.keep effect ?_
      rcases which with rfl | rfl
      · nofun
      · exact rewriting
    refine (ended.texts run member text holds).imp_right fun read => ⟨read, ?_⟩
    rw [textOf?_of_contents ended.contents]
    exact read

/-- A document that was known is tracked only if it was tracked all along, and
its generation never goes back. -/
theorem entries_of_moves {moves : List Move}
    (reached : session.moves? moves = some final)
    (coherent : Coherent session.debts session) (known : id.number < session.nextId)
    {entry : Entry} (found : final.registry.find? id = some entry) :
    ∃ earlier, session.registry.find? id = some earlier ∧
      earlier.generation ≤ entry.generation ∧ entry.source = earlier.source := by
  have goesBack := invariant_of_moves
    (fun _ later => session.nextId ≤ later.nextId ∧
      ∀ entry, later.registry.find? id = some entry →
        ∃ earlier, session.registry.find? id = some earlier ∧
          earlier.generation ≤ entry.generation ∧ entry.source = earlier.source) ?_
    reached coherent
    ⟨Nat.le_refl _, fun entry found => ⟨entry, found, Nat.le_refl _, rfl⟩⟩
  · exact goesBack.2 entry found
  · intro kind debts middle after final effect coherent holds
    have descent := effect.descent coherent
    refine ⟨Nat.le_trans holds.1 descent.nextId, fun entry found => ?_⟩
    rcases descent.entries found with new | ⟨between, foundBetween, ahead, source⟩
    · have number := holds.1
      omega
    · obtain ⟨earlier, foundBefore, behind, sourceBefore⟩ := holds.2 between foundBetween
      exact ⟨earlier, foundBefore, Nat.le_trans behind ahead,
        source.trans sourceBefore⟩

/-- In the course of a history the run of a document's generation has taken a
text from its document, and the generation was the latest by then. -/
def WasRead (start : Session) (moves : List Move) (id : DocumentId)
    (generation : Nat) (text : Text) : Prop :=
  ∃ earlier reading later before after entry,
    moves = earlier ++ reading :: later ∧ start.moves? earlier = some before ∧
      before.move? reading = some after ∧
      ¬before.HasText id generation text ∧ after.HasText id generation text ∧
      after.registry.find? id = some entry ∧ entry.generation = generation ∧
      before.textOf? entry.source = some text ∧ after.textOf? entry.source = some text

/-- A text that a run holds was read at some time. -/
theorem read_of_moves {settings : Settings} {cache : Option Cache}
    {moves : List Move} {run : Run} {text : Text}
    (reached : (initial settings cache).moves? moves = some session)
    (member : run ∈ session.runs) (holds : run.phase.text? = some text) :
    ∃ earlier reading later before after reader,
      moves = earlier ++ reading :: later ∧
        (initial settings cache).moves? earlier = some before ∧
        before.move? reading = some after ∧ after.moves? later = some session ∧
        ¬before.HasText run.id run.generation text ∧
        reader ∈ after.runs ∧ reader.key = run.key ∧
        reader.phase.text? = some text ∧
        before.textOf? reader.source = some text ∧
        after.textOf? reader.source = some text := by
  induction moves using List.reverseRecOn generalizing session run with
  | nil =>
      cases reached
      cases member
  | append_singleton moves move induction =>
      obtain ⟨middle, reachedMiddle, last⟩ := moves?_append_iff.mp reached
      obtain ⟨_, moved, same⟩ := moves?_cons_iff.mp last
      cases same
      by_cases held : middle.HasText run.id run.generation text
      · obtain ⟨same, sameMember, sameKey, heldText⟩ := held
        obtain ⟨earlier, reading, later, before, after, reader, split, reachedBefore,
          read, rest, notHeld, readerMember, readerKey, taken⟩ :=
          induction reachedMiddle sameMember heldText
        refine ⟨earlier, reading, later ++ [move], before, after, reader, ?_,
          reachedBefore, read, moves?_append_iff.mpr ⟨middle, rest, last⟩, ?_,
          readerMember, readerKey.trans sameKey, taken⟩
        · rw [split, List.append_assoc, List.cons_append]
        · rw [show run.id = same.id from (congrArg Prod.fst sameKey).symm,
            show run.generation = same.generation from (congrArg Prod.snd sameKey).symm]
          exact notHeld
      · have coherent := coherent_of_moves reachedMiddle (.initial settings cache)
        obtain ⟨before, after⟩ :=
          (hasText_of_move coherent moved member holds).resolve_left held
        exact ⟨moves, move, [], middle, _, run, rfl, reachedMiddle, moved, rfl, held,
          member, rfl, holds, before, after⟩

theorem wasRead_of_moves {settings : Settings} {cache : Option Cache}
    {moves : List Move} {run : Run} {text : Text} {entry : Entry}
    (reached : (initial settings cache).moves? moves = some session)
    (member : run ∈ session.runs) (holds : run.phase.text? = some text)
    (found : session.registry.find? run.id = some entry)
    (current : entry.generation = run.generation) :
    WasRead (initial settings cache) moves run.id run.generation text := by
  obtain ⟨earlier, reading, later, before, after, reader, split, reachedBefore, read,
    rest, notHeld, readerMember, readerKey, readerText, textBefore, textAfter⟩ :=
    read_of_moves reached member holds
  have coherent := coherent_of_moves reachedBefore (.initial settings cache)
  have coherentAfter := coherent.ofEffects (effects_of_move coherent read)
  have sameId : reader.id = run.id := congrArg Prod.fst readerKey
  have sameGeneration : reader.generation = run.generation := congrArg Prod.snd readerKey
  obtain ⟨entryThen, foundThen, behind, _⟩ := entries_of_moves rest coherentAfter
    (sameId ▸ coherentAfter.numbered reader readerMember) found
  obtain ⟨ahead, source⟩ :=
    coherentAfter.bounded reader readerMember (sameId ▸ foundThen)
  rw [source] at textBefore textAfter
  exact ⟨earlier, reading, later, before, after, entryThen, split, reachedBefore, read,
    notHeld, ⟨reader, readerMember, readerKey, readerText⟩, foundThen, by omega,
    textBefore, textAfter⟩

/-- The delivery of a move is that of a run which publishes. -/
theorem publishes_of_move {move : Move} {earlier later : List (Nat × Event)}
    {time : Nat} {publication : Publication}
    (coherent : Coherent before.debts before)
    (moved : before.move? move = some after)
    (delivered : after.log = earlier ++ (time, .highlights id publication) :: later)
    (fresh : before.log.length ≤ earlier.length) :
    earlier = before.log ∧ ∃ run entry nanoseconds,
      move = .poll run.id run.generation nanoseconds ∧ id = run.id ∧ publication.generation = run.generation ∧
      before.Publishes run publication.text publication.highlights entry := by
  obtain ⟨new, log, cases_⟩ := (move?_moved coherent moved).log coherent
  obtain ⟨extra, rfl, split⟩ : ∃ extra, earlier = before.log ++ extra ∧
      new = extra ++ (time, .highlights id publication) :: later := by
    rcases List.append_eq_append_iff.mp (log.symm.trans delivered) with
      ⟨extra, sameEarlier, sameNew⟩ | ⟨extra, sameLog, sameRest⟩
    · exact ⟨extra, sameEarlier, sameNew⟩
    · have none : extra = [] := by
        have lengths := congrArg List.length sameLog
        rw [List.length_append] at lengths
        exact List.length_eq_zero_iff.mp (by omega)
      subst none
      exact ⟨[], by simpa using sameLog.symm, by simpa using sameRest.symm⟩
  rcases cases_ with
    plain | ⟨run, text, highlights, entry, rest, nanoseconds, poll, publishes, first, plain⟩
  · have impossible := plain (time, .highlights id publication) (by simp [split])
    cases impossible
  · rw [first] at split
    cases extra with
    | nil =>
        cases split
        exact ⟨List.append_nil _, run, entry, nanoseconds, poll, rfl, rfl, publishes⟩
    | cons head extra =>
        cases split
        have impossible := plain (time, .highlights id publication) (by simp)
        cases impossible

theorem isIdle_of_poll {generation nanoseconds : Nat}
    (moved : session.move? (.poll id generation nanoseconds) = some after) :
    session.isIdle = true :=
  (Option.ite_none_right_eq_some.mp moved).1

/-- Highlights are delivered as they should be by the move that follows a
history; `earlier` is what was noted before them. -/
structure Delivers (start : Session) (moves : List Move) (before : Session)
    (earlier : List (Nat × Event)) (id : DocumentId) (publication : Publication) :
    Prop where
  present : before.dropped = false
  /-- They answer the latest edit of a tracked document. -/
  current : ∃ entry, before.registry.find? id = some entry ∧
    entry.generation = publication.generation
  newest : ∀ time other, (time, Event.highlights id other) ∈ earlier →
    other.generation < publication.generation
  read : WasRead start moves id publication.generation publication.text
  within : publication.text.length ≤ before.settings.maxChars
  computed : publication.highlights =
    Highlights.compute publication.text before.settings.highlightConfig

theorem publication_sound {settings : Settings} {cache : Option Cache}
    {moves : List Move} {move : Move} {earlier later : List (Nat × Event)}
    {time : Nat} {publication : Publication}
    (sound : ∀ given, cache = some given → given.Sound)
    (reached : (initial settings cache).moves? moves = some before)
    (moved : before.move? move = some after)
    (delivered : after.log = earlier ++ (time, .highlights id publication) :: later)
    (fresh : before.log.length ≤ earlier.length) :
    Delivers (initial settings cache) moves before earlier id publication := by
  have start := Coherent.initial settings cache
  have coherent := coherent_of_moves reached start
  obtain ⟨rfl, run, entry, _, rfl, rfl, generation, publishes⟩ :=
    publishes_of_move coherent moved delivered fresh
  obtain ⟨lookup, computed⟩ := publishes.computed
  have found := publishes.found
  have holds : run.phase.text? = some publication.text := by
    rw [computed, Phase.text?]
  have noDebts := debts_of_idle (isIdle_of_poll moved)
  have config : run.config = before.settings.workerConfig := by
    have tuned := tuned_of_moves reached start (Tuned.initial settings cache)
    refine (tuned found run
      publishes.member (by rw [publishes.current, Run.key])).resolve_right ?_
    rw [noDebts]
    exact List.not_mem_nil
  have exact_ := (exact_of_moves reached start (.initial settings sound)).runs run
    publishes.member
  constructor
  case present =>
    cases dropped : before.dropped with
    | false => rfl
    | true =>
        have closed := (coherent.gone dropped).2 found
        rw [publishes.computing] at closed
        cases closed
  case current => exact ⟨entry, found, publishes.current.trans generation.symm⟩
  case newest =>
    intro sooner other delivery
    have noDelivery : (initial settings cache).Dated :=
      fun impossible => absurd impossible List.not_mem_nil
    obtain ⟨_, behind, above⟩ := dated_of_moves reached start noDelivery delivery
    have bound := behind entry found
    have different : run.generation ≠ other.generation := fun same =>
      above run publishes.member (by rw [Run.key, same])
    have current := publishes.current
    omega
  case read =>
    rw [generation]
    exact wasRead_of_moves reached publishes.member holds found publishes.current
  case within =>
    have within := exact_.within publication.text holds
    rw [config] at within
    exact Nat.le_of_not_lt fun above =>
      Bool.false_ne_true (within.symm.trans (Text.exceeds_iff.mpr above))
  case computed =>
    have computedFrom := exact_.computed _ _ _ computed
    rw [config] at computedFrom
    exact computedFrom

theorem publication_sound_of_firstCall :
    ∃ before after publication,
      (initial .standard (some (.empty Cache.contentKey 8 1000))).moves?
          (firstCall ['a']) = some before ∧
      before.move? (.poll ⟨1⟩ 1 0) = some after ∧
      after.log = [(0, .highlights ⟨1⟩ publication)] ∧
      Delivers (initial .standard (some (.empty Cache.contentKey 8 1000)))
        (firstCall ['a']) before [] ⟨1⟩ publication := by
  have reached : (initial .standard (some (.empty Cache.contentKey 8 1000))).moves?
      (firstCall ['a']) = some _ := rfl
  have sound : ∀ given, some (Cache.empty Cache.contentKey 8 1000) = some given →
      given.Sound := by
    rintro _ ⟨⟩
    exact Cache.empty_sound Cache.contentKey 8 1000
  exact ⟨_, _, _, reached, rfl, rfl, publication_sound sound reached
    (show Session.move? _ (.poll ⟨1⟩ 1 0) = _ from rfl) rfl (Nat.zero_le _)⟩

end LogTint.Session
