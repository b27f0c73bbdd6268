import LogTint.Proofs.Telling

/-!
# Silence after a document is closed

Highlights are never delivered of a document after it was closed, and it is
never closed twice.  Other news may follow: a run that finds its text over the
ceiling, or whose computation broke off, tells the host without asking whether
the document is still there.  `silent_iff` says that these are the only runs
that break the silence.
-/

namespace LogTint

/-- Nothing of a kind is told of a document after it was closed. -/
def SilentAfterClose (told : Event → Option DocumentId) (id : DocumentId)
    (log : List (Nat × Event)) : Prop :=
  log.Pairwise fun earlier later => earlier.2 = .closed id → told later.2 ≠ some id

namespace Session

variable {debts : Debts} {session final after : Session} {id : DocumentId}

/-- Whether the host was told that a document is closed. -/
def HasClosed (session : Session) (id : DocumentId) : Prop :=
  ∃ time, (time, Event.closed id) ∈ session.log

/-- Closed documents, and those of which the host has yet to be told, are out of
the books. -/
structure Forgotten (closed : DocumentId → Prop) (notices : List Notice)
    (session : Session) : Prop where
  closed : ∀ {id}, closed id → id.number < session.nextId ∧
    session.registry.find? id = none ∧ ∀ notice ∈ notices, notice.id ≠ id
  noticed : ∀ notice ∈ notices, notice.id.number < session.nextId ∧
    session.registry.find? notice.id = none
  distinct : (notices.map Notice.id).Nodup

/-- The session forgets the documents that it closes. -/
def Forgets (session : Session) : Prop :=
  Forgotten session.HasClosed session.notices session

theorem hasClosed_append {time : Nat} {event : Event}
    (log : final.log = session.log ++ [(time, event)]) :
    final.HasClosed id ↔ session.HasClosed id ∨ event = .closed id := by
  simp only [HasClosed, log, List.mem_append, List.mem_singleton, Prod.mk.injEq]
  constructor
  · rintro ⟨other, earlier | ⟨_, same⟩⟩
    · exact .inl ⟨other, earlier⟩
    · exact .inr same.symm
  · rintro (⟨other, earlier⟩ | same)
    · exact ⟨other, .inl earlier⟩
    · exact ⟨time, .inr ⟨rfl, same.symm⟩⟩

/-- A document that is not tracked is never tracked again. -/
theorem untracked_of_descent {kind : EffectKind} {after : Debts}
    (descent : Descent kind debts session after final)
    (known : id.number < session.nextId)
    (untracked : session.registry.find? id = none) :
    final.registry.find? id = none := by
  cases found : final.registry.find? id with
  | none => rfl
  | some entry =>
      rcases descent.entries found with new | ⟨earlier, foundBefore, _⟩
      · omega
      · cases untracked.symm.trans foundBefore

namespace Forgotten

variable {closed other : DocumentId → Prop} {notices : List Notice} {notice : Notice}

theorem mono (forgotten : Forgotten closed notices session)
    (fewer : ∀ id, other id → closed id) : Forgotten other notices session :=
  ⟨fun isClosed => forgotten.closed (fewer _ isClosed), forgotten.noticed,
    forgotten.distinct⟩

theorem descend {kind : EffectKind} {after : Debts}
    (forgotten : Forgotten closed notices session)
    (descent : Descent kind debts session after final) :
    Forgotten closed notices final where
  closed isClosed := by
    obtain ⟨known, untracked, unnoticed⟩ := forgotten.closed isClosed
    exact ⟨Nat.lt_of_lt_of_le known descent.nextId,
      untracked_of_descent descent known untracked, unnoticed⟩
  noticed notice member := by
    obtain ⟨known, untracked⟩ := forgotten.noticed notice member
    exact ⟨Nat.lt_of_lt_of_le known descent.nextId,
      untracked_of_descent descent known untracked⟩
  distinct := forgotten.distinct

/-- A tracked document has not been closed and is in no notice. -/
theorem unheard (forgotten : Forgotten closed notices session)
    (coherent : Coherent debts session)
    (tracked : session.registry.contains id = true) :
    id.number < session.nextId ∧ ¬closed id ∧ ∀ notice ∈ notices, notice.id ≠ id := by
  obtain ⟨entry, found⟩ := Registry.contains_iff.mp tracked
  refine ⟨coherent.known found, ?_, ?_⟩
  · intro isClosed
    cases found.symm.trans (forgotten.closed isClosed).2.1
  · rintro notice member rfl
    cases found.symm.trans (forgotten.noticed notice member).2

theorem close (forgotten : Forgotten closed notices session)
    (known : id.number < session.nextId)
    (untracked : session.registry.find? id = none)
    (unnoticed : ∀ notice ∈ notices, notice.id ≠ id) :
    Forgotten (fun other => closed other ∨ other = id) notices session where
  closed := by
    rintro other (isClosed | rfl)
    · exact forgotten.closed isClosed
    · exact ⟨known, untracked, unnoticed⟩
  noticed := forgotten.noticed
  distinct := forgotten.distinct

/-- The host is going to be told that a document is closed. -/
theorem owe (forgotten : Forgotten closed notices session)
    (known : notice.id.number < session.nextId)
    (untracked : session.registry.find? notice.id = none)
    (unclosed : ¬closed notice.id)
    (unnoticed : ∀ earlier ∈ notices, earlier.id ≠ notice.id) :
    Forgotten closed (notices ++ [notice]) session where
  closed {id} isClosed := by
    obtain ⟨known, untracked, absent⟩ := forgotten.closed isClosed
    refine ⟨known, untracked, fun other member => ?_⟩
    rcases List.mem_append.mp member with earlier | last
    · exact absent other earlier
    · rw [List.mem_singleton.mp last]
      rintro rfl
      exact unclosed isClosed
  noticed other member := by
    rcases List.mem_append.mp member with earlier | last
    · exact forgotten.noticed other earlier
    · rw [List.mem_singleton.mp last]
      exact ⟨known, untracked⟩
  distinct := by
    rw [List.map_append, List.nodup_append]
    refine ⟨forgotten.distinct, by simp, ?_⟩
    intro left leftMember right rightMember same
    obtain ⟨other, otherMember, rfl⟩ := List.mem_map.mp leftMember
    simp only [List.map_cons, List.map_nil, List.mem_singleton] at rightMember
    exact unnoticed other otherMember (same.trans rightMember)

/-- The host is told that a document is closed. -/
theorem settle (forgotten : Forgotten closed notices session)
    (member : notice ∈ notices) :
    Forgotten (fun other => closed other ∨ other = notice.id) (notices.erase notice)
      session where
  closed := by
    rintro other (isClosed | rfl)
    · obtain ⟨known, untracked, absent⟩ := forgotten.closed isClosed
      exact ⟨known, untracked, fun other rest =>
        absent other (List.mem_of_mem_erase rest)⟩
    · obtain ⟨known, untracked⟩ := forgotten.noticed notice member
      refine ⟨known, untracked, fun other rest sameId => ?_⟩
      obtain ⟨different, otherMember⟩ :=
        (List.Nodup.of_map Notice.id forgotten.distinct).mem_erase_iff.mp rest
      exact different
        (List.inj_on_of_nodup_map forgotten.distinct otherMember member sameId)
  noticed other rest := forgotten.noticed other (List.mem_of_mem_erase rest)
  distinct := forgotten.distinct.sublist (List.erase_sublist.map Notice.id)

end Forgotten

theorem Forgets.keep {kind : EffectKind} {after : Debts} (forgets : session.Forgets)
    (effect : Effect kind (debts, session) (after, final))
    (coherent : Coherent debts session) : final.Forgets := by
  have descent := effect.descent coherent
  have forgotten := Forgotten.descend forgets descent
  have known : ∀ {id : DocumentId}, id.number < session.nextId →
      id.number < final.nextId := fun known => Nat.lt_of_lt_of_le known descent.nextId
  unfold Forgets
  cases effect.telling coherent with
  | nothing log notices =>
      rw [notices]
      refine forgotten.mono fun id closed => ?_
      rwa [HasClosed, log] at closed
  | remark remark log notices =>
      rw [notices]
      refine forgotten.mono fun id closed =>
        ((hasClosed_append log).mp closed).resolve_right ?_
      rintro rfl
      cases remark
  | @news event id told _ tracked closing log notices =>
      rw [notices]
      obtain ⟨number, _, unnoticed⟩ := Forgotten.unheard forgets coherent tracked
      by_cases closes : event = .closed id
      · refine (forgotten.close (known number) (closing closes) unnoticed).mono ?_
        intro other closed
        refine ((hasClosed_append log).mp closed).imp_right fun same => ?_
        exact (Event.closed.inj (closes.symm.trans same)).symm
      · refine forgotten.mono fun other closed =>
          ((hasClosed_append log).mp closed).resolve_right ?_
        rintro rfl
        cases told
        exact closes rfl
  | unheeded exit told minor log notices =>
      rw [notices]
      refine forgotten.mono fun id closed =>
        ((hasClosed_append log).mp closed).resolve_right ?_
      rintro rfl
      cases minor
  | owed tracked closing log notices =>
      rw [notices]
      obtain ⟨number, unclosed, unnoticed⟩ := Forgotten.unheard forgets coherent tracked
      refine (forgotten.owe (known number) closing unclosed unnoticed).mono ?_
      intro id closed
      rwa [HasClosed, log] at closed
  | settled member log notices =>
      rw [notices]
      refine (forgotten.settle member).mono fun other closed => ?_
      exact ((hasClosed_append log).mp closed).imp_right fun same =>
        (Event.closed.inj same).symm

/-! ## The log -/

theorem log_grows {kind : EffectKind} {after : Debts}
    (effect : Effect kind (debts, session) (after, final))
    (coherent : Coherent debts session) : session.log <+: final.log := by
  cases effect.telling coherent with
  | nothing log | owed _ _ log => exact log ▸ List.prefix_refl session.log
  | remark _ log | news _ _ _ _ log | unheeded _ _ _ log | settled _ log =>
      rw [log]
      exact List.prefix_append _ _

/-- An effect breaks the silence only where a run does not ask whether its
document is still there, and then only with minor news. -/
theorem silent_of_effect {kind : EffectKind} {after : Debts}
    {told : Event → Option DocumentId}
    (effect : Effect kind (debts, session) (after, final))
    (coherent : Coherent debts session) (forgets : session.Forgets)
    (isNews : ∀ event, told event = some id → event.news? = some id)
    (heeded : kind = .unheeded id → session.HasClosed id →
      ∀ event, told event = some id → event.outcome? = some id)
    (silent : SilentAfterClose told id session.log) :
    SilentAfterClose told id final.log := by
  have appended : ∀ {time : Nat} {event : Event},
      final.log = session.log ++ [(time, event)] →
      (session.HasClosed id → told event ≠ some id) →
      SilentAfterClose told id final.log := by
    intro time event log untold
    rw [log]
    refine List.pairwise_append.mpr ⟨silent, List.pairwise_singleton _ _, ?_⟩
    intro earlier member later last closed
    rw [List.mem_singleton.mp last]
    obtain ⟨closingTime, closing⟩ := earlier
    cases closed
    exact untold ⟨closingTime, member⟩
  cases effect.telling coherent with
  | nothing log | owed _ _ log =>
      rw [log]
      exact silent
  | remark remark log =>
      refine appended log fun _ isTold => ?_
      cases remark.symm.trans (isNews _ isTold)
  | news news _ tracked _ log =>
      refine appended log fun closed isTold => ?_
      cases news.symm.trans (isNews _ isTold)
      obtain ⟨entry, found⟩ := Registry.contains_iff.mp tracked
      cases found.symm.trans (forgets.closed closed).2.1
  | unheeded exit news minor log =>
      refine appended log fun closed isTold => ?_
      cases news.symm.trans (isNews _ isTold)
      cases minor.symm.trans (heeded exit closed _ isTold)
  | settled member log =>
      refine appended log fun closed isTold => ?_
      cases isNews _ isTold
      exact (forgets.closed closed).2.2 _ member rfl

theorem Forgets.initial (settings : Settings) (cache : Option Cache) :
    (initial settings cache).Forgets where
  closed closed := by
    obtain ⟨_, member⟩ := closed
    cases member
  noticed := List.forall_mem_nil _
  distinct := List.nodup_nil

theorem forgets_of_moves {moves : List Move} (reached : session.moves? moves = some final)
    (coherent : Coherent session.debts session) (forgets : session.Forgets) :
    final.Forgets :=
  invariant_of_moves (fun _ session => session.Forgets)
    (fun effect coherent forgets => forgets.keep effect coherent) reached coherent forgets

theorem silent_of_inner {after : Debts} {told : Event → Option DocumentId}
    (effects : Inner (debts, session) (after, final))
    (coherent : Coherent debts session) (forgets : session.Forgets)
    (isNews : ∀ event, told event = some id → event.news? = some id)
    (silent : SilentAfterClose told id session.log) :
    Coherent after final ∧ final.Forgets ∧ SilentAfterClose told id final.log :=
  effects.induct
    (fun debts session => Coherent debts session ∧ session.Forgets ∧
      SilentAfterClose told id session.log)
    (fun effect ⟨coherent, forgets, silent⟩ =>
      ⟨coherent.ofEffect effect, forgets.keep effect coherent,
        silent_of_effect effect coherent forgets isNews nofun silent⟩)
    ⟨coherent, forgets, silent⟩

theorem silent_of_move {move : Move} {told : Event → Option DocumentId}
    (coherent : Coherent session.debts session) (forgets : session.Forgets)
    (moved : session.move? move = some after)
    (isNews : ∀ event, told event = some id → event.news? = some id)
    (heeded : session.unheeded? move = some id → session.HasClosed id →
      ∀ event, told event = some id → event.outcome? = some id)
    (silent : SilentAfterClose told id session.log) :
    after.Forgets ∧ SilentAfterClose told id after.log := by
  obtain ⟨kind, ⟨start, finish, earlier, sameLog, effect, later⟩, admits⟩ :=
    (move?_moved coherent moved).marked
  obtain ⟨coherentStart, forgetsStart, silentStart⟩ :=
    silent_of_inner earlier coherent forgets isNews silent
  have silentFinish := silent_of_effect effect coherentStart forgetsStart isNews
    (fun exit closed => by
      subst exit
      exact heeded admits (by rwa [HasClosed, sameLog] at closed)) silentStart
  exact (silent_of_inner later (coherentStart.ofEffect effect)
    (forgetsStart.keep effect coherentStart) isNews silentFinish).2

theorem silent_of_moves {moves : List Move} {told : Event → Option DocumentId}
    (coherent : Coherent session.debts session) (forgets : session.Forgets)
    (reached : session.moves? moves = some after)
    (isNews : ∀ event, told event = some id → event.news? = some id)
    (heeded : ∀ earlier move later before, moves = earlier ++ move :: later →
      session.moves? earlier = some before → before.unheeded? move = some id →
        before.HasClosed id → ∀ event, told event = some id → event.outcome? = some id)
    (silent : SilentAfterClose told id session.log) :
    SilentAfterClose told id after.log := by
  induction moves generalizing session with
  | nil =>
      cases reached
      exact silent
  | cons move moves induction =>
      obtain ⟨middle, moved, rest⟩ := moves?_cons_iff.mp reached
      obtain ⟨forgetsMiddle, silentMiddle⟩ := silent_of_move coherent forgets moved
        isNews (heeded [] move moves session rfl rfl) silent
      refine induction (coherent.ofEffects (effects_of_move coherent moved))
        forgetsMiddle rest ?_ silentMiddle
      intro earlier other later before split reachedBefore
      refine heeded (move :: earlier) other later before (congrArg _ split) ?_
      exact moves?_cons_iff.mpr ⟨middle, moved, reachedBefore⟩

theorem log_grows_of_effects {after : Debts}
    (effects : Effects (debts, session) (after, final))
    (coherent : Coherent debts session) : session.log <+: final.log :=
  (effects.induct
    (fun debts later => Coherent debts later ∧ session.log <+: later.log)
    (fun effect ⟨coherent, grown⟩ =>
      ⟨coherent.ofEffect effect, grown.trans (log_grows effect coherent)⟩)
    ⟨coherent, List.prefix_refl _⟩).2

theorem log_grows_of_moves {moves : List Move}
    (coherent : Coherent session.debts session)
    (reached : session.moves? moves = some after) : session.log <+: after.log :=
  (moves?_keeps
    (fun later => Coherent later.debts later ∧ session.log <+: later.log)
    (fun moved ⟨coherent, grown⟩ =>
      have effects := effects_of_move coherent moved
      ⟨coherent.ofEffects effects,
        grown.trans (log_grows_of_effects effects coherent)⟩)
    reached ⟨coherent, List.prefix_refl _⟩).2

theorem log_of_unheeded {after : Debts}
    (effect : Effect (.unheeded id) (debts, session) (after, final)) :
    ∃ time event, event.news? = some id ∧
      final.log = session.log ++ [(time, event)] := by
  cases effect with
  | overrunUntracked =>
      rw [removeRun_eq]
      exact ⟨_, _, rfl, rfl⟩
  | reportUntracked =>
      rw [removeRun_eq]
      exact ⟨_, _, rfl, rfl⟩

/-- A run that does not ask tells the host all the same. -/
theorem news_of_unheeded {move : Move} (coherent : Coherent session.debts session)
    (exit : session.unheeded? move = some id)
    (moved : session.move? move = some after) :
    ∃ time event, event.news? = some id ∧
      session.log ++ [(time, event)] <+: after.log := by
  obtain ⟨start, finish, earlier, sameLog, effect, later⟩ :=
    marked_of_unheeded exit moved
  have coherentStart := coherent.ofEffects earlier.effects
  have grown := log_grows_of_effects later.effects (coherentStart.ofEffect effect)
  obtain ⟨time, event, news, log⟩ := log_of_unheeded effect
  rw [log, sameLog] at grown
  exact ⟨time, event, news, grown⟩

/-- Highlights are never delivered of a closed document and it is never closed
again; nothing at all is told of it exactly if no run that does not ask whether
the document is still there ends after it was closed. -/
theorem silent_iff {settings : Settings} {cache : Option Cache} {moves : List Move}
    (reached : (initial settings cache).moves? moves = some session)
    (id : DocumentId) :
    SilentAfterClose Event.outcome? id session.log ∧
      (SilentAfterClose Event.news? id session.log ↔
        ∀ earlier move later before, moves = earlier ++ move :: later →
          (initial settings cache).moves? earlier = some before →
          before.unheeded? move = some id → ¬before.HasClosed id) := by
  have coherent := Coherent.initial settings cache
  have forgets := Forgets.initial settings cache
  refine ⟨?_, ?_, ?_⟩
  · exact silent_of_moves coherent forgets reached
      (fun _ => Event.news?_of_outcome?)
      (fun _ _ _ _ _ _ _ _ _ outcome => outcome) List.Pairwise.nil
  · rintro silent earlier move later before rfl reachedBefore exit ⟨time, closed⟩
    obtain ⟨middle, reachedMiddle, rest⟩ := moves?_append_iff.mp reached
    cases reachedBefore.symm.trans reachedMiddle
    obtain ⟨after, moved, rest⟩ := moves?_cons_iff.mp rest
    have coherentBefore := coherent_of_moves reachedBefore coherent
    obtain ⟨newsTime, event, news, grown⟩ :=
      news_of_unheeded coherentBefore exit moved
    have coherentAfter :=
      coherentBefore.ofEffects (effects_of_move coherentBefore moved)
    have whole := grown.trans (log_grows_of_moves coherentAfter rest)
    have between := (List.pairwise_append.mp (silent.sublist whole.sublist)).2.2
    exact between _ closed _ (List.mem_singleton_self _) rfl news
  · intro heeded
    refine silent_of_moves coherent forgets reached (fun _ news => news) ?_
      List.Pairwise.nil
    intro earlier move later before split reachedBefore exit closed
    exact absurd closed (heeded earlier move later before split reachedBefore exit)

/-- A document over the ceiling that stops being tracked while it is read. -/
def selfClosing : Source :=
  { Source.quiet ['a', 'b'] true .counted with onSnapshot := [[.unregister ⟨1⟩]] }

/-- A host calls for the highlights of a document that stops being tracked while
it is read. -/
def selfClosingMoves : List Move :=
  [.create selfClosing, .act (.register 0)] ++ List.replicate 3 .proceed ++
    [.highlightNow ⟨1⟩] ++ List.replicate 6 .proceed

theorem silence_broken :
    ∃ session, (initial { Settings.standard with maxChars := 1 } none).moves?
        selfClosingMoves = some session ∧
      ¬SilentAfterClose Event.news? ⟨1⟩ session.log := by
  refine ⟨_, rfl, ?_⟩
  unfold SilentAfterClose
  decide

theorem silent_iff_of_selfClosingMoves :
    ∃ session, (initial { Settings.standard with maxChars := 1 } none).moves?
        selfClosingMoves = some session ∧ session.HasClosed ⟨1⟩ ∧
      SilentAfterClose Event.outcome? ⟨1⟩ session.log ∧
      (SilentAfterClose Event.news? ⟨1⟩ session.log ↔
        ∀ earlier move later before, selfClosingMoves = earlier ++ move :: later →
          (initial { Settings.standard with maxChars := 1 } none).moves? earlier =
            some before →
          before.unheeded? move = some ⟨1⟩ → ¬before.HasClosed ⟨1⟩) := by
  have reached : (initial { Settings.standard with maxChars := 1 } none).moves?
      selfClosingMoves = some _ := rfl
  exact ⟨_, reached, ⟨0, List.mem_cons_self⟩, silent_iff reached ⟨1⟩⟩

end Session

end LogTint
