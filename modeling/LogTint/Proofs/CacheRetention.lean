import LogTint.Proofs.CacheHistory
import Mathlib.Data.Finset.Card
import Mathlib.Data.Finset.Dedup
import Mathlib.Data.List.Find

/-!
# How long a cache remembers

A cache never holds more than it has room for, and gives up an entry that still
answers only where it has no choice.  An entry is then lost to others that came
after it, so it is still there as long as too few others came.
-/

namespace LogTint

/-- What the highlights of an entry were computed from. -/
def CacheEntry.subject (entry : CacheEntry) : Text × HighlightConfig :=
  (entry.text, entry.config)

namespace Cache

/-- The entries that would still answer, had they not been given up when highlights
were stored under another key. -/
def displaced (cache : Cache) (now : Nat) (text : Text) (config : HighlightConfig)
    (highlights : Highlights) : List CacheEntry :=
  cache.entries.filter fun entry =>
    cache.isFresh now entry = true ∧ entry.key ≠ cache.keyOf text config ∧
      entry ∉ (cache.insert now text config highlights).entries

variable {cache : Cache} {now : Nat} {text : Text} {config : HighlightConfig}
  {highlights : Highlights} {entry new : CacheEntry} {entries : List CacheEntry}

theorem isFresh_iff :
    cache.isFresh now entry = true ↔ now ≤ entry.insertedAt + cache.lifetime := by
  rw [isFresh, decide_eq_true_iff]
  omega

/-- Under a key that is taken, an entry displaces nothing but its predecessor. -/
theorem Stored.mem_of_present (stored : Stored cache now new entries)
    (present : (cache.find? new.key).isSome = true) (member : entry ∈ cache.entries)
    (different : entry.key ≠ new.key) : entry ∈ entries := by
  cases stored with
  | replaced => exact List.mem_map.mpr ⟨entry, member, if_neg different⟩
  | added absent | purged absent | evicted absent =>
      rw [absent] at present
      cases present

/-- All fresh entries are kept, unless the cache is full of them: then the oldest is
the only one to go. -/
theorem Stored.keeps_or_evicts (stored : Stored cache now new entries)
    (keys : (cache.entries.map (·.key)).Nodup) :
    (∀ entry ∈ cache.entries, entry.key ≠ new.key → cache.isFresh now entry = true →
      entry ∈ entries) ∨
      cache.find? new.key = none ∧ cache.length = cache.capacity ∧
        (∀ other ∈ cache.entries, cache.isFresh now other = true) ∧
        ∃ oldest ∈ cache.entries,
          (∀ other ∈ cache.entries, oldest.insertedAt ≤ other.insertedAt) ∧
          ∀ entry ∈ cache.entries, entry ∉ entries → entry = oldest := by
  cases stored with
  | replaced present =>
      apply Or.inl
      intro entry member different _
      exact List.mem_map.mpr ⟨entry, member, if_neg different⟩
  | added =>
      apply Or.inl
      intro entry member _ _
      exact List.mem_append_left _ member
  | purged =>
      apply Or.inl
      intro entry member _ fresh
      exact List.mem_append_left _ (List.mem_filter.mpr ⟨member, fresh⟩)
  | @evicted oldest absent full fresh oldestMember earliest =>
      refine .inr ⟨absent, full, fresh, oldest, oldestMember, earliest, ?_⟩
      intro entry member lost
      apply List.inj_on_of_nodup_map keys member oldestMember
      by_contra survives
      have kept : entry ∈ cache.entries.filter (·.key ≠ oldest.key) :=
        List.mem_filter.mpr ⟨member, by simpa using survives⟩
      exact lost (List.mem_append_left _ kept)

/-- What an entry that is in a cache under its own key answers to its own text. -/
theorem get_subject (keys : (cache.entries.map (·.key)).Nodup)
    (keyed : entry.key = cache.keyOf entry.text entry.config)
    (member : entry ∈ cache.entries) :
    (cache.get now entry.text entry.config).1 =
      if cache.isFresh now entry then some entry.highlights else none := by
  have found := find?_of_mem keys member
  rw [keyed] at found
  rw [get]
  simp only [found, and_self, if_true]
  split <;> rfl

/-- To purge is to drop what has become too old to answer. -/
theorem purge_eq (keys : (cache.entries.map (·.key)).Nodup)
    (keyed : ∀ entry ∈ cache.entries, entry.key = cache.keyOf entry.text entry.config) :
    cache.purge now =
      ((cache.entries.filter fun entry =>
          (cache.get now entry.text entry.config).1.isNone).length,
        { cache with
          entries := cache.entries.filter fun entry =>
            (cache.get now entry.text entry.config).1.isSome }) := by
  have answered : ∀ entry ∈ cache.entries,
      (cache.get now entry.text entry.config).1.isSome = cache.isFresh now entry := by
    intro entry member
    rw [get_subject keys (keyed entry member) member]
    cases cache.isFresh now entry <;> rfl
  have unanswered : ∀ entry ∈ cache.entries,
      (cache.get now entry.text entry.config).1.isNone = !cache.isFresh now entry := by
    intro entry member
    rw [← answered entry member, Option.not_isSome]
  rw [List.filter_congr answered, List.filter_congr unanswered, purge]
  have parts := cache.entries.length_eq_length_filter_add (cache.isFresh now)
  congr 1
  omega

end Cache

namespace CacheHistory

variable {history : CacheHistory} {text : Text} {config : HighlightConfig}
  {highlights : Highlights} {entry : CacheEntry} {since : Nat} {newText : Text}
  {newConfig : HighlightConfig}

/-- What was stored last for a text, unless the cache was cleared since. -/
def latestOf? (history : CacheHistory) (text : Text) (config : HighlightConfig) :
    Option CacheEntry :=
  history.stored.find? (·.subject = (text, config))

/-- The other texts, with their options, for which something was stored since. -/
def rivals (history : CacheHistory) (text : Text) (config : HighlightConfig)
    (since : Nat) : Finset (Text × HighlightConfig) :=
  ((history.stored.filter fun entry =>
    since ≤ entry.insertedAt ∧ entry.subject ≠ (text, config)).map
      CacheEntry.subject).toFinset

/-- No two texts that were stored share a key. -/
def Apart (history : CacheHistory) : Prop :=
  ∀ entry ∈ history.stored, ∀ other ∈ history.stored, entry.key = other.key →
    entry.subject = other.subject

theorem mem_rivals {subject : Text × HighlightConfig} :
    subject ∈ history.rivals text config since ↔
      ∃ entry ∈ history.stored, since ≤ entry.insertedAt ∧
        entry.subject ≠ (text, config) ∧ entry.subject = subject := by
  simp [rivals, and_assoc]

theorem rivals_subset_store :
    history.rivals text config since ⊆
      (history.store newText newConfig highlights).rivals text config since := by
  intro subject member
  obtain ⟨entry, stored, rest⟩ := mem_rivals.mp member
  exact mem_rivals.mpr ⟨entry, List.mem_cons_of_mem _ stored, rest⟩

/-- An entry that is the latest under its key is in the cache until it is too old, or
until the cache could be full of others that are not older. -/
def Retains (history : CacheHistory) : Prop :=
  ∀ entry, history.latest? entry.key = some entry →
    history.clock ≤ entry.insertedAt + history.cache.lifetime →
      (history.rivals entry.text entry.config entry.insertedAt).card <
        history.cache.capacity →
        entry ∈ history.cache.entries

/-- Entries under different keys, none older than one of them, count against it. -/
theorem Remembers.length_le_rivals (remembers : history.Remembers) (entry : CacheEntry)
    (entries : List CacheEntry) (keys : (entries.map (·.key)).Nodup)
    (stored : ∀ other ∈ entries, other ∈ history.stored)
    (later : ∀ other ∈ entries, entry.insertedAt ≤ other.insertedAt) :
    entries.length ≤
      (history.rivals entry.text entry.config entry.insertedAt).card + 1 := by
  -- The key is a function of the subject, so different keys are different subjects.
  have keyed : (entries.map CacheEntry.subject).map
      (fun subject => history.cache.keyOf subject.1 subject.2) = entries.map (·.key) := by
    rw [List.map_map]
    apply List.map_congr_left
    intro other member
    exact (remembers.keyed other (stored other member)).symm
  have subjects : (entries.map CacheEntry.subject).Nodup :=
    List.Nodup.of_map _ (keyed ▸ keys)
  have subset : (entries.map CacheEntry.subject).toFinset ⊆
      insert entry.subject
        (history.rivals entry.text entry.config entry.insertedAt) := by
    intro subject member
    obtain ⟨other, inside, rfl⟩ := List.mem_map.mp (List.mem_toFinset.mp member)
    by_cases same : other.subject = entry.subject
    · exact Finset.mem_insert.mpr (.inl same)
    · apply Finset.mem_insert_of_mem
      exact mem_rivals.mpr ⟨other, stored other inside, later other inside, same, rfl⟩
  calc entries.length
      = (entries.map CacheEntry.subject).toFinset.card := by
        rw [List.toFinset_card_of_nodup subjects, List.length_map]
    _ ≤ (insert entry.subject
          (history.rivals entry.text entry.config entry.insertedAt)).card :=
        Finset.card_le_card subset
    _ ≤ _ := Finset.card_insert_le _ _

/-- What fills a cache and came after an entry counts against it, and so does what is
stored next. -/
theorem Remembers.full_le_rivals (remembers : history.Remembers)
    (absent : history.cache.find? (history.cache.keyOf text config) = none)
    (member : entry ∈ history.cache.entries)
    (earliest : ∀ other ∈ history.cache.entries, entry.insertedAt ≤ other.insertedAt) :
    history.cache.length ≤ ((history.store text config highlights).rivals entry.text
      entry.config entry.insertedAt).card := by
  let new : CacheEntry :=
    ⟨history.cache.keyOf text config, text, config, highlights, history.clock⟩
  have stored : ∀ other ∈ history.cache.entries, other ∈ history.stored := by
    intro other inside
    exact List.mem_of_find?_eq_some (remembers.latest other inside)
  have after := remembers.store text config highlights
  have crowd := after.length_le_rivals entry (new :: history.cache.entries) ?_ ?_ ?_
  · exact Nat.le_of_succ_le_succ crowd
  · apply List.nodup_cons.mpr
    refine ⟨?_, remembers.keys⟩
    intro taken
    obtain ⟨other, inside, same⟩ := List.mem_map.mp taken
    exact Cache.key_ne_of_absent absent inside same
  · intro other inside
    rcases List.mem_cons.mp inside with rfl | earlier
    · exact List.mem_cons_self
    · exact List.mem_cons_of_mem _ (stored other earlier)
  · intro other inside
    rcases List.mem_cons.mp inside with rfl | earlier
    · exact remembers.passed entry (stored entry member)
    · exact earliest other earlier

namespace Retains

theorem initial (keyOf : Text → HighlightConfig → UInt64) (capacity lifetime : Nat) :
    (initial keyOf capacity lifetime).Retains := by
  intro entry latest
  cases latest

/-- Only what is too old may be dropped at any time. -/
theorem drop {entries : List CacheEntry} (retains : history.Retains)
    (kept : ∀ entry ∈ history.cache.entries,
      history.cache.isFresh history.clock entry = true → entry ∈ entries) :
    Retains { history with cache := { history.cache with entries } } := by
  intro entry latest young few
  exact kept entry (retains entry latest young few) (Cache.isFresh_iff.mpr young)

theorem get (retains : history.Retains) (remembers : history.Remembers) (text : Text)
    (config : HighlightConfig) : (history.perform (.get text config)).Retains := by
  have got := history.cache.get_got history.clock text config
  rw [perform]
  generalize history.cache.get history.clock text config = result at got
  cases got with
  | missing | fresh => exact retains
  | expired found _ stale =>
      apply retains.drop
      intro entry member fresh
      apply (Cache.mem_erase entry).mpr
      refine ⟨member, ?_⟩
      intro sameKey
      have again := Cache.find?_of_mem remembers.keys member
      rw [sameKey, found] at again
      cases again
      rw [fresh] at stale
      cases stale

theorem store (retains : history.Retains) (remembers : history.Remembers) (text : Text)
    (config : HighlightConfig) (highlights : Highlights) :
    (history.store text config highlights).Retains := by
  obtain ⟨entries, stored, inserted⟩ := Cache.insert_stored remembers.bounded
    remembers.room history.clock text config highlights
  intro entry latest young few
  let new : CacheEntry :=
    ⟨history.cache.keyOf text config, text, config, highlights, history.clock⟩
  rw [CacheHistory.store, inserted] at young ⊢
  by_cases sameKey : new.key = entry.key
  · have isNew : new = entry :=
      Option.some.inj ((List.find?_cons_of_pos (by simpa)).symm.trans latest)
    rw [← isNew]
    exact stored.new_mem
  · have latestBefore : history.latest? entry.key = some entry :=
      (List.find?_cons_of_neg (by simpa)).symm.trans latest
    have fewer : (history.store text config highlights).cache.capacity =
        history.cache.capacity := by
      rw [CacheHistory.store, inserted]
    rw [fewer] at few
    have member : entry ∈ history.cache.entries :=
      retains entry latestBefore young
        (Nat.lt_of_le_of_lt (Finset.card_le_card rivals_subset_store) few)
    rcases stored.keeps_or_evicts remembers.keys with keeps | evicts
    · exact keeps entry member (Ne.symm sameKey) (Cache.isFresh_iff.mpr young)
    · obtain ⟨absent, full, fresh, oldest, oldestMember, earliest, only⟩ := evicts
      by_contra lost
      obtain rfl := only entry member lost
      exact Nat.not_le.mpr few (full ▸ remembers.full_le_rivals absent member earliest)

theorem clear : (history.perform .clear).Retains := by
  intro entry latest
  cases latest

theorem wait (retains : history.Retains) (duration : Nat) :
    (history.perform (.wait duration)).Retains := by
  intro entry latest young few
  exact retains entry latest (Nat.le_trans (Nat.le_add_right _ _) young) few

theorem performs {operations : List CacheOperation} (retains : history.Retains)
    (remembers : history.Remembers) : (history.performs operations).Retains := by
  have both := performs_induct history operations
    (fun later => later.Remembers ∧ later.Retains) ?_ ?_ ?_ ?_ ?_ ⟨remembers, retains⟩
  · exact both.2
  · rintro later text config ⟨remembers, retains⟩
    exact ⟨remembers.get text config, retains.get remembers text config⟩
  · rintro later text config highlights ⟨remembers, retains⟩
    exact ⟨remembers.store text config highlights,
      retains.store remembers text config highlights⟩
  · rintro later ⟨remembers, retains⟩
    refine ⟨remembers.drop List.filter_sublist, retains.drop ?_⟩
    intro entry member fresh
    exact List.mem_filter.mpr ⟨member, fresh⟩
  · rintro later ⟨remembers, _⟩
    exact ⟨remembers.clear, clear⟩
  · rintro later duration ⟨remembers, retains⟩
    exact ⟨remembers.wait duration, retains.wait duration⟩

end Retains

variable {operations : List CacheOperation}

/-- A text is found again where no other text has its key. -/
theorem Remembers.latest?_of_latestOf? (remembers : history.Remembers)
    (apart : history.Apart) (latest : history.latestOf? text config = some entry) :
    entry.subject = (text, config) ∧ history.latest? entry.key = some entry := by
  have subject : entry.subject = (text, config) := by
    simpa using List.find?_some latest
  refine ⟨subject, ?_⟩
  have stored : entry ∈ history.stored := List.mem_of_find?_eq_some latest
  rw [← latest, latest?, latestOf?]
  apply List.find?_congr
  intro other inside
  apply decide_eq_decide.mpr
  constructor
  · intro sameKey
    rw [apart other inside entry stored sameKey, subject]
  · intro sameSubject
    rw [remembers.keyed other inside, remembers.keyed entry stored]
    have same := sameSubject.trans subject.symm
    exact congrArg (fun subject => history.cache.keyOf subject.1 subject.2) same

/-- At most one fresh entry makes way for another, the oldest of a cache that is full
of fresh ones. -/
theorem Remembers.displaced (remembers : history.Remembers) (text : Text)
    (config : HighlightConfig) (highlights : Highlights) :
    let lost := history.cache.displaced history.clock text config highlights
    lost.length ≤ 1 ∧
      ∀ entry ∈ lost,
        history.cache.find? (history.cache.keyOf text config) = none ∧
          history.cache.length = history.cache.capacity ∧
          ∀ other ∈ history.cache.entries,
            history.cache.isFresh history.clock other = true ∧
              entry.insertedAt ≤ other.insertedAt := by
  obtain ⟨entries, stored, inserted⟩ := Cache.insert_stored remembers.bounded
    remembers.room history.clock text config highlights
  have mem_lost : ∀ {entry},
      entry ∈ history.cache.displaced history.clock text config highlights →
        entry ∈ history.cache.entries ∧ history.cache.isFresh history.clock entry = true ∧
          entry.key ≠ history.cache.keyOf text config ∧ entry ∉ entries := by
    intro entry member
    simpa [Cache.displaced, inserted] using member
  rcases stored.keeps_or_evicts remembers.keys with keeps | evicts
  · have nothing : history.cache.displaced history.clock text config highlights = [] := by
      apply List.eq_nil_iff_forall_not_mem.mpr
      intro entry member
      obtain ⟨inside, fresh, different, lost⟩ := mem_lost member
      exact lost (keeps entry inside different fresh)
    rw [nothing]
    exact ⟨Nat.zero_le _, List.forall_mem_nil _⟩
  · obtain ⟨absent, full, fresh, oldest, -, earliest, only⟩ := evicts
    have isOldest : ∀ entry ∈ history.cache.displaced history.clock text config highlights,
        entry = oldest := by
      intro entry member
      obtain ⟨inside, -, -, lost⟩ := mem_lost member
      exact only entry inside lost
    constructor
    · have once : (history.cache.displaced history.clock text config highlights).Nodup :=
        (List.Nodup.of_map _ remembers.keys).filter _
      rw [List.eq_replicate_of_mem isOldest] at once
      exact List.nodup_replicate.mp once
    · intro entry member
      rw [isOldest entry member]
      exact ⟨absent, full, fun other inside => ⟨fresh other inside, earliest other inside⟩⟩

/-- Whatever was done with a cache, it holds no more than it has room for.  To store
something new costs one fresh entry at most, the oldest, and only if the cache is full of
fresh ones; to store something again costs nothing.  If no two texts share a key, what
was stored last for a text is found for as long as it is fresh and fewer others than
there is room for were stored since.  To purge removes what is too old to be found. -/
theorem bounded_retentive (keyOf : Text → HighlightConfig → UInt64)
    (capacity lifetime : Nat) (operations : List CacheOperation) :
    let history := (initial keyOf capacity lifetime).performs operations
    let cache := history.cache
    let now := history.clock
    (cache.capacity = max capacity 1 ∧ cache.length ≤ cache.capacity) ∧
      (∀ text config highlights,
        let key := keyOf text config
        let after := cache.insert now text config highlights
        let lost := cache.displaced now text config highlights
        ((cache.find? key).isSome = true →
          ∀ entry ∈ cache.entries, entry.key ≠ key → entry ∈ after.entries) ∧
        lost.length ≤ 1 ∧
        ∀ entry ∈ lost,
          cache.find? key = none ∧ cache.length = cache.capacity ∧
            ∀ other ∈ cache.entries,
              cache.isFresh now other = true ∧ entry.insertedAt ≤ other.insertedAt) ∧
      (history.Apart →
        ∀ text config entry, history.latestOf? text config = some entry →
          now ≤ entry.insertedAt + lifetime →
          (history.rivals text config entry.insertedAt).card < max capacity 1 →
            (cache.get now text config).1 = some entry.highlights) ∧
      (∀ entry ∈ cache.entries,
        (cache.get now entry.text entry.config).1 =
          if now ≤ entry.insertedAt + lifetime then some entry.highlights else none) ∧
      cache.purge now =
        ((cache.entries.filter fun entry =>
            (cache.get now entry.text entry.config).1.isNone).length,
          { cache with
            entries := cache.entries.filter fun entry =>
              (cache.get now entry.text entry.config).1.isSome }) := by
  intro history cache now
  have remembers : history.Remembers := (Remembers.initial keyOf capacity lifetime).performs
  have retains : history.Retains :=
    (Retains.initial keyOf capacity lifetime).performs (.initial keyOf capacity lifetime)
  obtain ⟨entries, frame⟩ := performs_frame (initial keyOf capacity lifetime) operations
    (.initial keyOf capacity lifetime)
  have sameKey : cache.keyOf = keyOf := congrArg Cache.keyOf frame
  have sameCapacity : cache.capacity = max capacity 1 := congrArg Cache.capacity frame
  have sameLifetime : cache.lifetime = lifetime := congrArg Cache.lifetime frame
  have keyed : ∀ entry ∈ cache.entries, entry.key = cache.keyOf entry.text entry.config := by
    intro entry member
    exact remembers.keyed entry (List.mem_of_find?_eq_some (remembers.latest entry member))
  refine ⟨⟨sameCapacity, remembers.bounded⟩, ?_, ?_, ?_, Cache.purge_eq remembers.keys keyed⟩
  · intro text config highlights
    rw [← sameKey]
    refine ⟨?_, remembers.displaced text config highlights⟩
    intro present entry member different
    obtain ⟨after, stored, inserted⟩ := Cache.insert_stored remembers.bounded
      remembers.room now text config highlights
    rw [inserted]
    exact stored.mem_of_present present member different
  · intro apart text config entry latest young few
    obtain ⟨subject, latestOfKey⟩ := remembers.latest?_of_latestOf? apart latest
    obtain ⟨rfl, rfl⟩ := Prod.mk.inj subject
    rw [← sameLifetime] at young
    have member : entry ∈ cache.entries :=
      retains entry latestOfKey young (sameCapacity ▸ few)
    rw [Cache.get_subject remembers.keys (keyed entry member) member]
    exact if_pos (Cache.isFresh_iff.mpr young)
  · intro entry member
    rw [Cache.get_subject remembers.keys (keyed entry member) member, ← sameLifetime]
    exact if_congr Cache.isFresh_iff rfl rfl

/-- One text is stored again before a third one takes the place of the second. -/
def storedAgain : List CacheOperation :=
  [.getOrCompute ['a'] .enabled, .wait 1, .getOrCompute ['b'] .enabled, .wait 1,
    .insert ['a'] .enabled (Highlights.compute ['a'] .enabled), .wait 1,
    .getOrCompute ['c'] .enabled]

theorem bounded_retentive_of_storedAgain :
    let history := (initial Cache.contentKey 2 10).performs storedAgain
    let cache := history.cache
    let highlights := Highlights.compute ['a'] .enabled
    let key := Cache.contentKey ['a'] .enabled
    let entry : CacheEntry := ⟨key, ['a'], .enabled, highlights, 2⟩
    (history.Apart ∧ history.latestOf? ['a'] .enabled = some entry ∧
      (history.rivals ['a'] .enabled 2).card < 2 ∧
      (cache.get 3 ['a'] .enabled).1 = some highlights) ∧
      ((cache.find? key).isSome = true ∧
        ∀ other ∈ cache.entries, other.key ≠ key →
          other ∈ (cache.insert 3 ['a'] .enabled highlights).entries) ∧
      entry ∈ cache.displaced 3 ['d'] .enabled highlights ∧
      cache.length = cache.capacity := by
  intro history cache highlights key entry
  have whole := bounded_retentive Cache.contentKey 2 10 storedAgain
  have apart : history.Apart := by
    unfold Apart
    decide
  have few : (history.rivals ['a'] .enabled 2).card < 2 := by decide
  have young : history.clock ≤ 2 + 10 := by decide
  have present : (cache.find? key).isSome = true := by decide
  have displaced : entry ∈ cache.displaced 3 ['d'] .enabled highlights :=
    List.mem_filter.mpr ⟨List.mem_cons_self, by decide⟩
  refine ⟨⟨apart, rfl, few, ?_⟩, ⟨present, ?_⟩, displaced, ?_⟩
  · exact whole.2.2.1 apart _ _ entry rfl young few
  · exact (whole.2.1 ['a'] .enabled highlights).1 present
  · exact ((whole.2.1 ['d'] .enabled highlights).2.2 entry displaced).2.1

end CacheHistory

end LogTint
