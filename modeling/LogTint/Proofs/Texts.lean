import LogTint.Proofs.CacheSound
import LogTint.Proofs.Histories
import LogTint.Proofs.Descent

/-!
# What runs have read and computed

A run holds a text within the ceiling that it was armed with, and computes the
highlights of that text under the options that it was armed with.  The latest
run of a document was armed with what the settings say now, unless the document
is about to be edited.
-/

namespace LogTint

/-- What an effect does to the documents of the host and to the cache. -/
structure Surroundings (kind : EffectKind) (session final : Session) : Prop where
  contents : kind = .rewriting ∨
    final.sources.map Source.content = session.sources.map Source.content
  cache : final.cache = session.cache ∨ final.cache = session.cache.map Cache.clear ∨
    ∃ text config, final.cache = (session.highlightText text config).2.cache

theorem Effect.surroundings {kind : EffectKind} {debts after : Debts}
    {session final : Session} (effect : Effect kind (debts, session) (after, final))
    (coherent : Coherent debts session) : Surroundings kind session final := by
  cases effect with
  | aside later contents => exact ⟨.inr contents, .inl rfl⟩
  | rewrite => exact ⟨.inl rfl, .inl rfl⟩
  | clearCache => exact ⟨.inr rfl, .inr (.inl rfl)⟩
  | count | remark | register | tell | reconfigure | wake | wait | read | measure
  | forget | weaken =>
      exact ⟨.inr rfl, .inl rfl⟩
  | unregister tracked =>
      obtain ⟨_, _, _, _, _, _, released⟩ :=
        session.release_spec coherent.distinct tracked
      unfold Session.releaseAndTell
      rw [released]
      exact ⟨.inr rfl, .inl rfl⟩
  | abandon tracked =>
      obtain ⟨_, _, _, _, _, _, released⟩ :=
        session.release_spec coherent.distinct tracked
      rw [released]
      exact ⟨.inr rfl, .inl rfl⟩
  | @bypass _ _ id =>
      obtain ⟨_, _, _, _, _, renewed⟩ := session.renew_spec coherent.distinct id .idle
      rw [renewed]
      exact ⟨.inr rfl, .inl rfl⟩
  | @arm _ _ id =>
      obtain ⟨_, _, _, _, _, renewed⟩ := session.renew_spec coherent.distinct id .pending
      rw [renewed]
      exact ⟨.inr rfl, .inl rfl⟩
  | @call _ _ id =>
      obtain ⟨_, _, _, _, _, renewed⟩ := session.renew_spec coherent.distinct id .pending
      rw [renewed]
      exact ⟨.inr rfl, .inl rfl⟩
  | start _ _ advance =>
      obtain ⟨_, _, _, _, _, _, rfl⟩ := Session.advanceState?_spec advance
      exact ⟨.inr rfl, .inl rfl⟩
  | @overrun _ _ run | @report _ _ run =>
      rw [Session.removeRun_eq]
      cases advance : session.advanceState? run .computing .idle with
      | none => exact ⟨.inr rfl, .inl rfl⟩
      | some advanced =>
          obtain ⟨_, _, _, _, _, _, rfl⟩ := Session.advanceState?_spec advance
          exact ⟨.inr rfl, .inl rfl⟩
  | stale | overrunUntracked | reportUntracked =>
      rw [Session.removeRun_eq]
      exact ⟨.inr rfl, .inl rfl⟩
  | @complete _ _ run text =>
      obtain ⟨_, cache, _, looked, completed⟩ :=
        session.complete_spec coherent.distinct run text
      rw [completed]
      refine ⟨.inr rfl, .inr (.inr ⟨text, run.config.highlight, ?_⟩)⟩
      rw [looked]
  | @breakOff _ _ run text reason =>
      obtain ⟨_, _, broken⟩ := session.breakOff_spec coherent.distinct run reason
      rw [broken]
      exact ⟨.inr rfl, .inl rfl⟩
  | @drop _ _ run =>
      obtain ⟨_, _, _, _, _, dropped⟩ := Session.closeDropped_spec session run
      rw [Session.removeRun_eq, dropped]
      exact ⟨.inr rfl, .inl rfl⟩
  | publish _ _ advance =>
      obtain ⟨_, _, _, _, _, _, rfl⟩ := Session.advanceState?_spec advance
      rw [Session.removeRun_eq]
      exact ⟨.inr rfl, .inl rfl⟩
  | close =>
      obtain ⟨_, _, _, _, closed⟩ := session.close_spec coherent.distinct
      rw [closed]
      exact ⟨.inr rfl, .inl rfl⟩

/-- Moves leave the documents of the host alone unless they rewrite one. -/
theorem Session.Marked.contents {kind : EffectKind} {session final : Session}
    (marked : Marked kind session final) (quiet : kind ≠ .rewriting)
    (coherent : Coherent session.debts session) :
    final.sources.map Source.content = session.sources.map Source.content := by
  have both := marked.induct (fun debts later => Coherent debts later ∧
    later.sources.map Source.content = session.sources.map Source.content) ?_
    ⟨coherent, rfl⟩
  · exact both.2
  · rintro kind debts middle after final (rfl | rfl) effect ⟨coherent, same⟩
    · have contents := (effect.surroundings coherent).contents.resolve_left nofun
      exact ⟨coherent.ofEffect effect, contents.trans same⟩
    · have contents := (effect.surroundings coherent).contents.resolve_left quiet
      exact ⟨coherent.ofEffect effect, contents.trans same⟩

theorem Text.length_le_size (text : Text) : text.length ≤ text.size := by
  induction text with
  | nil => exact Nat.le_refl _
  | cons char rest induction =>
      have positive := char.utf8Size_pos
      rw [List.length_cons, size_cons]
      omega

/-- A text has as many characters as allowed however it is judged. -/
theorem Text.exceeds_iff {text : Text} {ceiling : Nat} :
    text.exceeds ceiling = true ↔ ceiling < text.length := by
  have size := text.length_le_size
  simp only [exceeds, Bool.and_eq_true, decide_eq_true_eq]
  omega

/-- What a run holds is within its ceiling and computed under its options. -/
structure Run.Exact (run : Run) : Prop where
  within : ∀ text, run.phase.text? = some text →
    text.exceeds run.config.maxChars = false
  computed : ∀ text highlights lookup,
    run.phase = .computed text highlights lookup →
      highlights = Highlights.compute text run.config.highlight

theorem Run.Exact.of_textless {run : Run} (textless : run.phase.text? = none) :
    run.Exact where
  within text holds := by
    rw [textless] at holds
    cases holds
  computed text highlights lookup phase := by
    rw [phase] at textless
    cases textless

namespace Session

variable {debts after : Debts} {session final : Session} {kind : EffectKind}

/-- The latest run of a document was armed with what the settings say now. -/
def Tuned (debts : Debts) (session : Session) : Prop :=
  ∀ ⦃id entry⦄, session.registry.find? id = some entry →
    ∀ run ∈ session.runs, run.key = (id, entry.generation) →
      run.config = session.settings.workerConfig ∨ id ∈ debts.edits

theorem Tuned.keep (tuned : Tuned debts session)
    (effect : Effect kind (debts, session) (after, final))
    (coherent : Coherent debts session) : Tuned after final := by
  intro id entry found run member isCurrent
  have descent := effect.descent coherent
  have here : run.id = id := congrArg Prod.fst isCurrent
  -- A run that is still the latest has been so before.
  have goesBack : ∀ earlier ∈ session.runs, run.key = earlier.key →
      run.config = earlier.config →
        run.config = final.settings.workerConfig ∨ id ∈ after.edits := by
    intro earlier earlierMember sameKey sameConfig
    have sameId : earlier.id = id := (congrArg Prod.fst sameKey).symm.trans here
    have number := coherent.numbered earlier earlierMember
    rcases descent.entries found with new | ⟨entryBefore, foundBefore, ahead, _⟩
    · rw [sameId, new] at number
      exact absurd number (Nat.lt_irrefl _)
    · have behind := (coherent.bounded earlier earlierMember (sameId ▸ foundBefore)).1
      have sameGeneration : earlier.generation = entry.generation :=
        congrArg Prod.snd (sameKey.symm.trans isCurrent)
      have currentBefore : earlier.key = (id, entryBefore.generation) :=
        Prod.ext sameId (by simp only [Run.key]; omega)
      rcases tuned foundBefore earlier earlierMember currentBefore with config | owed
      · rcases descent.settings with same | rearmed
        · exact .inl (by rw [sameConfig, config, same])
        · exact .inr (rearmed foundBefore)
      · refine (descent.edits id owed).elim .inr fun bumped => ?_
        obtain ⟨other, foundOther, less⟩ := bumped entry found
        cases foundBefore.symm.trans foundOther
        omega
  cases descent.runs run member with
  | kept earlierMember key source config => exact goesBack _ earlierMember key config
  | read earlierMember key source config => exact goesBack _ earlierMember key config
  | computed earlierMember key source config => exact goesBack _ earlierMember key config
  | broken earlierMember key source config => exact goesBack _ earlierMember key config
  | fresh foundBefore generation source config =>
      rcases descent.settings with same | rearmed
      · exact .inl (by rw [config, same])
      · exact .inr (here ▸ rearmed foundBefore)

/-- The cache is sound and runs hold what they should. -/
structure Exact (session : Session) : Prop where
  cache : ∀ cache, session.cache = some cache → cache.Sound
  runs : ∀ run ∈ session.runs, run.Exact

theorem Exact.highlightText (exact_ : session.Exact) (text : Text)
    (config : HighlightConfig) :
    (session.highlightText text config).1.1 = Highlights.compute text config ∧
      ∀ cache, (session.highlightText text config).2.cache = some cache →
        cache.Sound := by
  unfold Session.highlightText
  cases present : session.cache with
  | none => exact ⟨rfl, exact_.cache⟩
  | some cache =>
      obtain ⟨answers, sound⟩ :=
        Cache.getOrCompute_sound (exact_.cache cache present) session.clock text config
      refine ⟨answers, ?_⟩
      rintro after ⟨⟩
      exact sound

theorem Exact.keep (exact_ : session.Exact)
    (effect : Effect kind (debts, session) (after, final))
    (coherent : Coherent debts session) : final.Exact where
  cache cache present := by
    rcases (effect.surroundings coherent).cache with
      same | cleared | ⟨text, config, looked⟩
    · exact exact_.cache cache (same ▸ present)
    · rw [cleared, Option.map_eq_some_iff] at present
      obtain ⟨earlier, _, rfl⟩ := present
      exact earlier.clear_sound
    · exact (exact_.highlightText text config).2 cache (looked ▸ present)
  runs run member := by
    cases (effect.descent coherent).runs run member with
    | @kept earlier earlierMember key source config phase =>
        rcases phase with same | bare
        · obtain ⟨within, computed⟩ := exact_.runs earlier earlierMember
          rw [← same, ← config] at within computed
          exact ⟨within, computed⟩
        · exact .of_textless (Phase.text?_of_isBare bare)
    | read earlierMember key source config found within phase =>
        refine ⟨fun text holds => ?_, fun text highlights lookup computed => ?_⟩
        · rw [phase] at holds
          cases holds
          exact within
        · rw [phase] at computed
          cases computed
    | @computed earlier text earlierMember key source config computing phase =>
        have within := (exact_.runs earlier earlierMember).within text
          (by rw [computing, Phase.text?])
        refine ⟨fun other holds => ?_, fun other highlights lookup computed => ?_⟩
        · rw [phase] at holds
          cases holds
          rw [config]
          exact within
        · rw [phase] at computed
          cases computed
          rw [config]
          exact (exact_.highlightText text earlier.config.highlight).1
    | broken earlierMember key source config breakdown phase =>
        refine .of_textless ?_
        rw [phase]
        rfl
    | fresh found generation source config bare =>
        exact .of_textless (Phase.text?_of_isBare bare)

/-! ## Histories -/

theorem tuned_of_moves {moves : List Move}
    (reached : session.moves? moves = some final)
    (coherent : Coherent session.debts session) (tuned : Tuned session.debts session) :
    Tuned final.debts final :=
  invariant_of_moves (fun debts session => Tuned debts session)
    (fun effect coherent tuned => tuned.keep effect coherent) reached coherent tuned

theorem exact_of_moves {moves : List Move}
    (reached : session.moves? moves = some final)
    (coherent : Coherent session.debts session) (exact_ : session.Exact) :
    final.Exact :=
  invariant_of_moves (fun _ session => session.Exact)
    (fun effect coherent exact_ => exact_.keep effect coherent) reached coherent exact_

theorem Exact.initial (settings : Settings) {cache : Option Cache}
    (sound : ∀ given, cache = some given → given.Sound) :
    (initial settings cache).Exact :=
  ⟨sound, List.forall_mem_nil _⟩

theorem Tuned.initial (settings : Settings) (cache : Option Cache) :
    Tuned (initial settings cache).debts (initial settings cache) := by
  intro id entry found
  cases found

end Session

end LogTint
