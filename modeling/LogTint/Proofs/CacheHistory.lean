import LogTint.Proofs.CacheSound
import Mathlib.Data.List.Nodup

/-!
# What a cache remembers

A history of a cache keeps beside the cache what was stored in it, whatever has
become of it since.  Entries are found by their keys alone, and texts may share a
key.  Even so every entry of the cache is the latest that was stored under its
key, so the cache never answers with anything else.
-/

namespace LogTint

namespace Cache

variable {cache : Cache} {now : Nat} {text : Text} {config : HighlightConfig}
  {key : UInt64} {entry new : CacheEntry}

/-! ## What is asked of a cache -/

theorem find?_key (found : cache.find? key = some entry) : entry.key = key := by
  simpa using List.find?_some found

theorem find?_mem (found : cache.find? key = some entry) : entry ∈ cache.entries :=
  List.mem_of_find?_eq_some found

theorem find?_of_mem (keys : (cache.entries.map (·.key)).Nodup)
    (member : entry ∈ cache.entries) : cache.find? entry.key = some entry := by
  cases found : cache.find? entry.key with
  | none =>
      have absent := List.find?_eq_none.mp found entry member
      simp at absent
  | some other =>
      have same : other = entry :=
        List.inj_on_of_nodup_map keys (find?_mem found) member (find?_key found)
      rw [same]

theorem key_ne_of_absent (absent : cache.find? key = none)
    (member : entry ∈ cache.entries) : entry.key ≠ key := by
  simpa using List.find?_eq_none.mp absent entry member

/-- What a cache answers, and what is left of it. -/
inductive Got (cache : Cache) (now : Nat) (text : Text) (config : HighlightConfig) :
    Option Highlights × Cache → Prop where
  /-- Nothing is kept under the key, or something else is. -/
  | missing
      (foreign : ∀ entry, cache.find? (cache.keyOf text config) = some entry →
        ¬(entry.text = text ∧ entry.config = config)) :
      Got cache now text config (none, cache)
  | fresh {entry : CacheEntry}
      (found : cache.find? (cache.keyOf text config) = some entry)
      (same : entry.text = text ∧ entry.config = config)
      (fresh : cache.isFresh now entry = true) :
      Got cache now text config (some entry.highlights, cache)
  | expired {entry : CacheEntry}
      (found : cache.find? (cache.keyOf text config) = some entry)
      (same : entry.text = text ∧ entry.config = config)
      (expired : cache.isFresh now entry = false) :
      Got cache now text config (none, cache.erase (cache.keyOf text config))

theorem get_got (cache : Cache) (now : Nat) (text : Text) (config : HighlightConfig) :
    Got cache now text config (cache.get now text config) := by
  unfold get
  dsimp only
  cases found : cache.find? (cache.keyOf text config) with
  | none => exact .missing (by simp [found])
  | some entry =>
      dsimp only
      split
      case isFalse different =>
        apply Got.missing
        intro other foundOther
        cases found.symm.trans foundOther
        exact different
      case isTrue same =>
        split
        case isTrue fresh => exact .fresh found same fresh
        case isFalse stale => exact .expired found same (Bool.eq_false_iff.mpr stale)

/-- An answer comes from a fresh entry of the same text, which stays. -/
theorem get_eq_some {highlights : Highlights}
    (answer : (cache.get now text config).1 = some highlights) :
    (∃ entry, cache.find? (cache.keyOf text config) = some entry ∧
      entry.text = text ∧ entry.config = config ∧ entry.highlights = highlights ∧
        cache.isFresh now entry = true) ∧
      (cache.get now text config).2 = cache := by
  have got := cache.get_got now text config
  generalize cache.get now text config = result at got answer
  cases got with
  | missing => cases answer
  | fresh found same fresh =>
      cases answer
      exact ⟨⟨_, found, same.1, same.2, rfl, fresh⟩, rfl⟩
  | expired => cases answer

/-- An entry of another text is left alone and answers nothing. -/
theorem get_of_foreign (found : cache.find? (cache.keyOf text config) = some entry)
    (foreign : ¬(entry.text = text ∧ entry.config = config)) :
    cache.get now text config = (none, cache) := by
  have got := cache.get_got now text config
  generalize cache.get now text config = result at got
  cases got with
  | missing => rfl
  | fresh foundSame same | expired foundSame same =>
      cases found.symm.trans foundSame
      exact absurd same foreign

/-- Only entries are dropped by asking. -/
theorem get_frame (cache : Cache) (now : Nat) (text : Text) (config : HighlightConfig) :
    ∃ entries, entries.Sublist cache.entries ∧
      (cache.get now text config).2 = { cache with entries } := by
  have got := cache.get_got now text config
  generalize cache.get now text config = result at got
  cases got with
  | missing | fresh => exact ⟨_, List.Sublist.refl _, rfl⟩
  | expired => exact ⟨_, List.filter_sublist, rfl⟩

/-- A cache computes what it does not answer, and stores it. -/
theorem getOrCompute_eq (cache : Cache) (now : Nat) (text : Text)
    (config : HighlightConfig) :
    (cache.getOrCompute now text config).1.2 = (cache.get now text config).1.isSome ∧
      (cache.getOrCompute now text config).2 =
        if (cache.get now text config).1.isSome then (cache.get now text config).2
        else
          (cache.get now text config).2.insert now text config
            (Highlights.compute text config) := by
  unfold getOrCompute
  generalize cache.get now text config = result
  obtain ⟨found, after⟩ := result
  cases found <;> exact ⟨rfl, rfl⟩

/-! ## What is stored in a cache -/

theorem mem_erase (entry : CacheEntry) :
    entry ∈ (cache.erase key).entries ↔ entry ∈ cache.entries ∧ entry.key ≠ key := by
  simp [erase]

/-- The oldest entry is one of the entries, and none was inserted before it. -/
theorem oldest?_eq_some {entries : List CacheEntry} (oldest : oldest? entries = some entry) :
    entry ∈ entries ∧ ∀ other ∈ entries, entry.insertedAt ≤ other.insertedAt := by
  induction entries generalizing entry with
  | nil => cases oldest
  | cons first later induction =>
      unfold oldest? at oldest
      cases rest : oldest? later with
      | none =>
          rw [rest] at oldest
          cases oldest
          cases later with
          | nil => simp
          | cons second others =>
              unfold oldest? at rest
              split at rest
              · cases rest
              · split at rest <;> cases rest
      | some other =>
          obtain ⟨member, earliest⟩ := induction rest
          rw [rest] at oldest
          dsimp only at oldest
          split at oldest
          case isTrue sooner =>
            cases oldest
            refine ⟨List.mem_cons_self, ?_⟩
            intro another anotherMember
            rcases List.mem_cons.mp anotherMember with rfl | inLater
            · exact Nat.le_refl _
            · exact Nat.le_trans sooner (earliest another inLater)
          case isFalse later =>
            cases oldest
            refine ⟨List.mem_cons_of_mem _ member, ?_⟩
            intro another anotherMember
            rcases List.mem_cons.mp anotherMember with rfl | inLater
            · omega
            · exact earliest another inLater

theorem oldest?_isSome {entries : List CacheEntry} (nonempty : entries ≠ []) :
    ∃ entry, oldest? entries = some entry := by
  cases entries with
  | nil => exact absurd rfl nonempty
  | cons first later =>
      unfold oldest?
      split
      · exact ⟨_, rfl⟩
      · split <;> exact ⟨_, rfl⟩

/-- The entries of a cache after one more was stored at a time, by the way in which
room was found for it. -/
inductive Stored (cache : Cache) (now : Nat) (new : CacheEntry) :
    List CacheEntry → Prop where
  | replaced (present : (cache.find? new.key).isSome = true) :
      Stored cache now new
        (cache.entries.map fun other => if other.key = new.key then new else other)
  | added (absent : cache.find? new.key = none) (spare : cache.length < cache.capacity) :
      Stored cache now new (cache.entries ++ [new])
  /-- The cache was full, and some of its entries had expired. -/
  | purged (absent : cache.find? new.key = none) (full : cache.length = cache.capacity)
      (expired : ∃ other ∈ cache.entries, cache.isFresh now other = false) :
      Stored cache now new (cache.entries.filter (cache.isFresh now) ++ [new])
  /-- The cache was full of entries that had not expired. -/
  | evicted {oldest : CacheEntry} (absent : cache.find? new.key = none)
      (full : cache.length = cache.capacity)
      (fresh : ∀ other ∈ cache.entries, cache.isFresh now other = true)
      (member : oldest ∈ cache.entries)
      (earliest : ∀ other ∈ cache.entries, oldest.insertedAt ≤ other.insertedAt) :
      Stored cache now new (cache.entries.filter (·.key ≠ oldest.key) ++ [new])

theorem put_absent (absent : cache.find? new.key = none) :
    cache.put new = { cache with entries := cache.entries ++ [new] } := by
  rw [put, absent]
  rfl

/-- What stays is not found under a key that was not found before. -/
theorem find?_none_of_subset {entries : List CacheEntry}
    (absent : cache.find? key = none) (subset : entries ⊆ cache.entries) :
    find? { cache with entries } key = none := by
  apply List.find?_eq_none.mpr
  intro other member
  simpa using key_ne_of_absent absent (subset member)

/-- The cache after one more entry was stored. -/
theorem insert_stored (bounded : cache.length ≤ cache.capacity)
    (room : 0 < cache.capacity) (now : Nat) (text : Text) (config : HighlightConfig)
    (highlights : Highlights) :
    ∃ entries,
      Stored cache now ⟨cache.keyOf text config, text, config, highlights, now⟩ entries ∧
      cache.insert now text config highlights = { cache with entries } := by
  let new : CacheEntry := ⟨cache.keyOf text config, text, config, highlights, now⟩
  cases found : cache.find? new.key with
  | some entry =>
      have present : (cache.find? new.key).isSome = true := by rw [found]; rfl
      refine ⟨_, .replaced present, ?_⟩
      show put (if (cache.find? new.key).isSome then cache else cache.makeRoom now) new = _
      rw [if_pos present, put, if_pos present]
  | none =>
      have inserted : cache.insert now text config highlights =
          (cache.makeRoom now).put new := by
        show put (if (cache.find? new.key).isSome then cache else cache.makeRoom now) new = _
        rw [found]
        rfl
      rw [inserted, makeRoom]
      split
      case isTrue spare => exact ⟨_, .added found spare, put_absent found⟩
      case isFalse packed =>
        have full : cache.length = cache.capacity := by omega
        have kept : cache.entries.filter (cache.isFresh now) ⊆ cache.entries :=
          List.filter_subset_self _
        dsimp only
        split
        case isTrue spare =>
          refine ⟨_, .purged found full ?_, put_absent (find?_none_of_subset found kept)⟩
          apply Decidable.byContradiction
          intro noneExpired
          have same : cache.entries.filter (cache.isFresh now) = cache.entries := by
            apply List.filter_eq_self.mpr
            intro other member
            by_contra stale
            exact noneExpired ⟨other, member, Bool.eq_false_iff.mpr stale⟩
          have less : (cache.entries.filter (cache.isFresh now)).length < cache.capacity :=
            spare
          rw [same] at less
          exact Nat.ne_of_lt less full
        case isFalse packedStill =>
          -- Nothing had expired, so purging has changed nothing.
          have most : cache.capacity ≤ (cache.entries.filter (cache.isFresh now)).length :=
            Nat.not_lt.mp packedStill
          have same : cache.entries.filter (cache.isFresh now) = cache.entries :=
            List.filter_sublist.eq_of_length_le
              (show cache.length ≤ _ from full ▸ most)
          have unchanged : (cache.purge now).2 = cache := by
            show { cache with entries := _ } = cache
            rw [same]
          have nonempty : cache.entries ≠ [] := by
            intro empty
            rw [length, empty] at full
            exact Nat.ne_of_lt room full
          obtain ⟨oldest, isOldest⟩ := oldest?_isSome nonempty
          obtain ⟨member, earliest⟩ := oldest?_eq_some isOldest
          refine ⟨_, .evicted found full (List.filter_eq_self.mp same) member earliest, ?_⟩
          rw [unchanged, evict, isOldest]
          exact put_absent (find?_none_of_subset found (List.filter_subset_self _))

namespace Stored

variable {entries : List CacheEntry}

theorem new_mem (stored : Stored cache now new entries) : new ∈ entries := by
  cases stored with
  | replaced present =>
      obtain ⟨entry, found⟩ := Option.isSome_iff_exists.mp present
      exact List.mem_map.mpr ⟨entry, find?_mem found, if_pos (find?_key found)⟩
  | added | purged | evicted =>
      exact List.mem_append_right _ (List.mem_singleton_self _)

/-- What is in the cache was stored now or was there under another key. -/
theorem mem (stored : Stored cache now new entries) (member : entry ∈ entries) :
    entry = new ∨ entry ∈ cache.entries ∧ entry.key ≠ new.key := by
  have appended : ∀ {kept : List CacheEntry}, kept ⊆ cache.entries →
      cache.find? new.key = none → entry ∈ kept ++ [new] →
        entry = new ∨ entry ∈ cache.entries ∧ entry.key ≠ new.key := by
    intro kept subset absent inKept
    rcases List.mem_append.mp inKept with earlier | last
    · exact .inr ⟨subset earlier, key_ne_of_absent absent (subset earlier)⟩
    · exact .inl (List.mem_singleton.mp last)
  cases stored with
  | replaced =>
      obtain ⟨other, otherMember, same⟩ := List.mem_map.mp member
      split at same
      · exact .inl same.symm
      · rename_i different
        cases same
        exact .inr ⟨otherMember, different⟩
  | added absent => exact appended (List.Subset.refl _) absent member
  | purged absent => exact appended (List.filter_subset_self _) absent member
  | evicted absent => exact appended (List.filter_subset_self _) absent member

theorem keys (stored : Stored cache now new entries)
    (keys : (cache.entries.map (·.key)).Nodup) : (entries.map (·.key)).Nodup := by
  have appended : ∀ {kept : List CacheEntry}, kept.Sublist cache.entries →
      cache.find? new.key = none → ((kept ++ [new]).map (·.key)).Nodup := by
    intro kept sublist absent
    rw [List.map_append, List.nodup_append]
    refine ⟨keys.sublist (sublist.map _), List.nodup_singleton _, ?_⟩
    intro keptKey keptMember newKey newMember
    obtain ⟨other, otherMember, rfl⟩ := List.mem_map.mp keptMember
    obtain rfl := List.mem_singleton.mp newMember
    exact key_ne_of_absent absent (sublist.subset otherMember)
  cases stored with
  | replaced =>
      have same : (cache.entries.map fun other =>
          if other.key = new.key then new else other).map (·.key) =
            cache.entries.map (·.key) := by
        rw [List.map_map]
        apply List.map_congr_left
        intro other _
        simp only [Function.comp_apply]
        split
        · rename_i here
          exact here.symm
        · rfl
      rw [same]
      exact keys
  | added absent => exact appended (List.Sublist.refl _) absent
  | purged absent => exact appended List.filter_sublist absent
  | evicted absent => exact appended List.filter_sublist absent

/-- A cache that is within its capacity stays within it. -/
theorem bounded (stored : Stored cache now new entries)
    (bounded : cache.length ≤ cache.capacity) : entries.length ≤ cache.capacity := by
  cases stored with
  | replaced =>
      rw [List.length_map]
      exact bounded
  | added absent spare =>
      rw [List.length_append]
      exact spare
  | purged absent full expired =>
      have fewer : (cache.entries.filter (cache.isFresh now)).length < cache.length := by
        obtain ⟨other, member, stale⟩ := expired
        exact List.length_filter_lt_length_iff_exists.mpr ⟨other, member, by simp [stale]⟩
      rw [List.length_append, ← full]
      exact fewer
  | @evicted oldest absent full fresh member =>
      have fewer : (cache.entries.filter (·.key ≠ oldest.key)).length < cache.length :=
        List.length_filter_lt_length_iff_exists.mpr ⟨oldest, member, by simp⟩
      rw [List.length_append, ← full]
      exact fewer

end Stored

end Cache

/-! ## Histories -/

/-- Something that is done with a cache, or a wait. -/
inductive CacheOperation where
  | get (text : Text) (config : HighlightConfig)
  | insert (text : Text) (config : HighlightConfig) (highlights : Highlights)
  | getOrCompute (text : Text) (config : HighlightConfig)
  | purge
  | clear
  | wait (duration : Nat)

/-- Whether an operation stores highlights that somebody else made. -/
def CacheOperation.isInsert : CacheOperation → Bool
  | .insert _ _ _ => true
  | _ => false

/-- A cache at a moment, with what was stored in it. -/
structure CacheHistory where
  clock : Nat
  cache : Cache
  /-- What was stored since the cache was last cleared, the latest first. -/
  stored : List CacheEntry

namespace CacheHistory

/-- A history in which nothing has been done with the cache. -/
def initial (keyOf : Text → HighlightConfig → UInt64) (capacity lifetime : Nat) :
    CacheHistory :=
  ⟨0, .empty keyOf capacity lifetime, []⟩

/-- The highlights of a text are stored. -/
def store (history : CacheHistory) (text : Text) (config : HighlightConfig)
    (highlights : Highlights) : CacheHistory :=
  { history with
    cache := history.cache.insert history.clock text config highlights
    stored :=
      ⟨history.cache.keyOf text config, text, config, highlights, history.clock⟩ ::
        history.stored }

def perform (history : CacheHistory) : CacheOperation → CacheHistory
  | .get text config =>
      { history with cache := (history.cache.get history.clock text config).2 }
  | .insert text config highlights => history.store text config highlights
  | .getOrCompute text config =>
      { history with
        cache := (history.cache.getOrCompute history.clock text config).2
        stored :=
          if (history.cache.getOrCompute history.clock text config).1.2 then
            history.stored
          else
            ⟨history.cache.keyOf text config, text, config,
              Highlights.compute text config, history.clock⟩ :: history.stored }
  | .purge => { history with cache := (history.cache.purge history.clock).2 }
  | .clear => { history with cache := history.cache.clear, stored := [] }
  | .wait duration => { history with clock := history.clock + duration }

def performs (history : CacheHistory) (operations : List CacheOperation) :
    CacheHistory :=
  operations.foldl perform history

/-- What was stored last under a key, unless the cache was cleared since. -/
def latest? (history : CacheHistory) (key : UInt64) : Option CacheEntry :=
  history.stored.find? (·.key = key)

variable {history : CacheHistory} {operations : List CacheOperation}
  {text : Text} {config : HighlightConfig} {entry : CacheEntry}

/-- Asking for highlights and computing them is asking, and storing what was not
there. -/
theorem perform_getOrCompute (history : CacheHistory) (text : Text)
    (config : HighlightConfig) :
    history.perform (.getOrCompute text config) =
      if (history.cache.get history.clock text config).1.isSome then
        history.perform (.get text config)
      else (history.perform (.get text config)).store text config
        (Highlights.compute text config) := by
  obtain ⟨flag, after⟩ := history.cache.getOrCompute_eq history.clock text config
  obtain ⟨entries, -, frame⟩ := history.cache.get_frame history.clock text config
  have performed : history.perform (.getOrCompute text config) =
      { history with
        cache := (history.cache.getOrCompute history.clock text config).2
        stored :=
          if (history.cache.getOrCompute history.clock text config).1.2 then
            history.stored
          else
            ⟨history.cache.keyOf text config, text, config,
              Highlights.compute text config, history.clock⟩ :: history.stored } := rfl
  rw [performed, flag, after]
  split
  · rfl
  · rw [store, perform, frame]

/-- What single accesses keep is kept by a whole history. -/
theorem performs_induct (history : CacheHistory) (operations : List CacheOperation)
    (Holds : CacheHistory → Prop)
    (get : ∀ history text config, Holds history → Holds (history.perform (.get text config)))
    (store : ∀ history text config highlights, Holds history →
      Holds (history.store text config highlights))
    (purge : ∀ history, Holds history → Holds (history.perform .purge))
    (clear : ∀ history, Holds history → Holds (history.perform .clear))
    (wait : ∀ history duration, Holds history → Holds (history.perform (.wait duration)))
    (holds : Holds history) : Holds (history.performs operations) := by
  induction operations generalizing history with
  | nil => exact holds
  | cons operation later induction =>
      apply induction
      cases operation with
      | get text config => exact get history text config holds
      | insert text config highlights => exact store history text config highlights holds
      | getOrCompute text config =>
          rw [perform_getOrCompute]
          split
          · exact get history text config holds
          · exact store _ text config _ (get history text config holds)
      | purge => exact purge history holds
      | clear => exact clear history holds
      | wait duration => exact wait history duration holds

/-- Every entry of the cache is the latest that was stored under its key, and there
is room for all of them. -/
structure Remembers (history : CacheHistory) : Prop where
  keys : (history.cache.entries.map (·.key)).Nodup
  latest : ∀ entry ∈ history.cache.entries, history.latest? entry.key = some entry
  keyed : ∀ entry ∈ history.stored, entry.key = history.cache.keyOf entry.text entry.config
  passed : ∀ entry ∈ history.stored, entry.insertedAt ≤ history.clock
  bounded : history.cache.length ≤ history.cache.capacity
  room : 0 < history.cache.capacity

namespace Remembers

theorem initial (keyOf : Text → HighlightConfig → UInt64) (capacity lifetime : Nat) :
    (initial keyOf capacity lifetime).Remembers where
  keys := List.nodup_nil
  latest := List.forall_mem_nil _
  keyed := List.forall_mem_nil _
  passed := List.forall_mem_nil _
  bounded := Nat.zero_le _
  room := Nat.lt_of_lt_of_le Nat.one_pos (Nat.le_max_right _ _)

/-- Entries may be dropped at any time. -/
theorem drop {entries : List CacheEntry} (remembers : history.Remembers)
    (sublist : entries.Sublist history.cache.entries) :
    Remembers { history with cache := { history.cache with entries } } where
  keys := remembers.keys.sublist (sublist.map _)
  latest entry member := remembers.latest entry (sublist.subset member)
  keyed := remembers.keyed
  passed := remembers.passed
  bounded := Nat.le_trans sublist.length_le remembers.bounded
  room := remembers.room

theorem get (remembers : history.Remembers) (text : Text) (config : HighlightConfig) :
    (history.perform (.get text config)).Remembers := by
  obtain ⟨entries, sublist, frame⟩ := history.cache.get_frame history.clock text config
  rw [perform, frame]
  exact remembers.drop sublist

theorem store (remembers : history.Remembers) (text : Text) (config : HighlightConfig)
    (highlights : Highlights) : (history.store text config highlights).Remembers := by
  obtain ⟨entries, stored, inserted⟩ := Cache.insert_stored remembers.bounded
    remembers.room history.clock text config highlights
  rw [CacheHistory.store, inserted]
  refine ⟨stored.keys remembers.keys, ?_, ?_, ?_, stored.bounded remembers.bounded,
    remembers.room⟩
  · intro entry member
    rcases stored.mem member with rfl | ⟨earlier, different⟩
    · exact List.find?_cons_of_pos (by simp)
    · rw [latest?, List.find?_cons_of_neg (by simpa using Ne.symm different)]
      exact remembers.latest entry earlier
  · intro entry member
    rcases List.mem_cons.mp member with rfl | earlier
    · rfl
    · exact remembers.keyed entry earlier
  · intro entry member
    rcases List.mem_cons.mp member with rfl | earlier
    · exact Nat.le_refl _
    · exact remembers.passed entry earlier

theorem clear (remembers : history.Remembers) : (history.perform .clear).Remembers where
  keys := List.nodup_nil
  latest := List.forall_mem_nil _
  keyed := List.forall_mem_nil _
  passed := List.forall_mem_nil _
  bounded := Nat.zero_le _
  room := remembers.room

theorem wait (remembers : history.Remembers) (duration : Nat) :
    (history.perform (.wait duration)).Remembers :=
  { remembers with
    passed := fun entry member =>
      Nat.le_trans (remembers.passed entry member) (Nat.le_add_right _ _) }

theorem performs (remembers : history.Remembers) : (history.performs operations).Remembers :=
  performs_induct _ _ Remembers (fun _ text config remembers => remembers.get text config)
    (fun _ text config highlights remembers => remembers.store text config highlights)
    (fun _ remembers => remembers.drop List.filter_sublist) (fun _ => clear)
    (fun _ duration remembers => remembers.wait duration) remembers

end Remembers

/-- Key function, capacity and lifetime of a cache never change. -/
theorem performs_frame (history : CacheHistory) (operations : List CacheOperation)
    (remembers : history.Remembers) :
    ∃ entries, (history.performs operations).cache = { history.cache with entries } := by
  have both := performs_induct history operations
    (fun later => later.Remembers ∧ ∃ entries, later.cache = { history.cache with entries })
    ?_ ?_ ?_ ?_ ?_ ⟨remembers, _, rfl⟩
  · exact both.2
  · rintro later text config ⟨remembers, _, same⟩
    obtain ⟨entries, -, frame⟩ := later.cache.get_frame later.clock text config
    exact ⟨remembers.get text config, entries, by rw [perform, frame, same]⟩
  · rintro later text config highlights ⟨remembers, _, same⟩
    obtain ⟨entries, -, inserted⟩ := Cache.insert_stored remembers.bounded remembers.room
      later.clock text config highlights
    exact ⟨remembers.store text config highlights, entries, by rw [store, inserted, same]⟩
  · rintro later ⟨remembers, _, same⟩
    exact ⟨remembers.drop List.filter_sublist, _, by rw [perform, Cache.purge, same]⟩
  · rintro later ⟨remembers, _, same⟩
    exact ⟨remembers.clear, _, by rw [perform, Cache.clear, same]⟩
  · rintro later duration ⟨remembers, _, same⟩
    exact ⟨remembers.wait duration, _, same⟩

/-- Operations that store nothing of their own keep a cache sound. -/
theorem performs_sound (computed : ∀ operation ∈ operations, operation.isInsert = false)
    (sound : history.cache.Sound) : (history.performs operations).cache.Sound := by
  induction operations generalizing history with
  | nil => exact sound
  | cons operation later induction =>
      obtain ⟨first, computedLater⟩ := List.forall_mem_cons.mp computed
      apply induction computedLater
      cases operation with
      | get text config => exact (Cache.get_sound sound _ text config).2
      | insert => cases first
      | getOrCompute text config => exact (Cache.getOrCompute_sound sound _ text config).2
      | purge => exact fun entry member => sound entry (List.filter_subset_self _ member)
      | clear => exact Cache.clear_sound _
      | wait => exact sound

/-- Whatever was done with a cache, and however texts share keys, it answers only what
was stored last under the key, for exactly that text, at most a lifetime ago and not
cleared since.  To be asked changes nothing when it answers, or when the key is taken by
another text.  A cache that stores only what it has computed answers what would be
computed. -/
theorem answers_latest (keyOf : Text → HighlightConfig → UInt64) (capacity lifetime : Nat)
    (operations : List CacheOperation) (text : Text) (config : HighlightConfig) :
    let history := (initial keyOf capacity lifetime).performs operations
    let cache := history.cache
    let now := history.clock
    let key := keyOf text config
    (∀ highlights, (cache.get now text config).1 = some highlights →
      (∃ insertedAt,
        history.latest? key = some ⟨key, text, config, highlights, insertedAt⟩ ∧
          insertedAt ≤ now ∧ now ≤ insertedAt + lifetime) ∧
        (cache.get now text config).2 = cache ∧
        cache.getOrCompute now text config = ((highlights, true), cache)) ∧
      (∀ entry, cache.find? key = some entry →
        entry.text ≠ text ∨ entry.config ≠ config →
          cache.get now text config = (none, cache)) ∧
      (cache.getOrCompute now text config).1.2 = (cache.get now text config).1.isSome ∧
      ((∀ operation ∈ operations, operation.isInsert = false) →
        (cache.getOrCompute now text config).1.1 = Highlights.compute text config) := by
  intro history cache now key
  have remembers : history.Remembers := (Remembers.initial keyOf capacity lifetime).performs
  obtain ⟨entries, frame⟩ := performs_frame (initial keyOf capacity lifetime) operations
    (.initial keyOf capacity lifetime)
  have sameKey : cache.keyOf text config = key := congrArg (·.keyOf text config) frame
  have sameLifetime : cache.lifetime = lifetime := congrArg Cache.lifetime frame
  refine ⟨?_, ?_, (cache.getOrCompute_eq now text config).1, ?_⟩
  · intro highlights answer
    obtain ⟨⟨entry, found, rfl, rfl, rfl, fresh⟩, unchanged⟩ := Cache.get_eq_some answer
    rw [sameKey] at found
    have latest := remembers.latest entry (Cache.find?_mem found)
    have passed := remembers.passed entry (List.mem_of_find?_eq_some latest)
    rw [Cache.find?_key found] at latest
    refine ⟨⟨entry.insertedAt, ?_, passed, ?_⟩, unchanged, ?_⟩
    · rw [latest, ← Cache.find?_key found]
    · simp only [Cache.isFresh, decide_eq_true_eq, sameLifetime] at fresh
      show history.clock ≤ _
      omega
    · have whole : cache.get now entry.text entry.config = (some entry.highlights, cache) :=
        Prod.ext answer unchanged
      rw [Cache.getOrCompute, whole]
  · intro entry found different
    rw [← sameKey] at found
    exact Cache.get_of_foreign found (not_and_or.mpr different)
  · intro computed
    have sound : cache.Sound := performs_sound computed
      (show (initial keyOf capacity lifetime).cache.Sound from Cache.empty_sound _ _ _)
    exact (Cache.getOrCompute_sound sound now text config).1

/-- One text is computed, and another one with the same key is asked for later. -/
def oneKey : List CacheOperation := [.getOrCompute ['a'] .enabled, .wait 5, .get ['b'] .enabled]

theorem answers_latest_of_oneKey :
    let history := (initial (fun _ _ => 0) 1 10).performs oneKey
    let cache := history.cache
    let highlights := Highlights.compute ['a'] .enabled
    (cache.get 5 ['a'] .enabled).1 = some highlights ∧
      (∃ insertedAt,
        history.latest? 0 = some ⟨0, ['a'], .enabled, highlights, insertedAt⟩ ∧
          insertedAt ≤ 5 ∧ 5 ≤ insertedAt + 10) ∧
      cache.get 5 ['b'] .enabled = (none, cache) ∧
      (cache.getOrCompute 5 ['b'] .enabled).1.1 = Highlights.compute ['b'] .enabled := by
  have first := answers_latest (fun _ _ => 0) 1 10 oneKey ['a'] .enabled
  have second := answers_latest (fun _ _ => 0) 1 10 oneKey ['b'] .enabled
  obtain ⟨foreign, -, computed⟩ := second.2
  refine ⟨rfl, (first.1 _ rfl).1, foreign _ rfl (.inl (by decide)), computed ?_⟩
  intro operation member
  simp only [oneKey, List.mem_cons, List.not_mem_nil, or_false] at member
  rcases member with rfl | rfl | rfl <;> rfl

end CacheHistory

end LogTint
