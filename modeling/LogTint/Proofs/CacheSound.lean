import LogTint.Cache
import Mathlib.Data.List.Basic

/-!
# Sound caches

A cache is sound if every entry holds the highlights of its own text under its
own options.  The operations of the scheduler keep a cache sound, and what a
sound cache answers might as well have been computed.
-/

namespace LogTint

/-- The entry holds the highlights of its text. -/
def CacheEntry.Sound (entry : CacheEntry) : Prop :=
  entry.highlights = Highlights.compute entry.text entry.config

namespace Cache

/-- Every entry holds the highlights of its text. -/
def Sound (cache : Cache) : Prop := ∀ entry ∈ cache.entries, entry.Sound

variable {cache : Cache} {now : Nat} {text : Text} {config : HighlightConfig}

theorem erase_entries (cache : Cache) (key : UInt64) :
    (cache.erase key).entries ⊆ cache.entries :=
  List.filter_sublist.subset

theorem makeRoom_entries (cache : Cache) (now : Nat) :
    (cache.makeRoom now).entries ⊆ cache.entries := by
  have purged : (cache.purge now).2.entries ⊆ cache.entries :=
    List.filter_sublist.subset
  unfold makeRoom
  split
  · exact List.Subset.refl _
  · dsimp only
    split
    · exact purged
    · unfold evict
      split
      · exact purged
      · exact List.Subset.trans (erase_entries _ _) purged

theorem mem_put {entry other : CacheEntry}
    (member : other ∈ (cache.put entry).entries) :
    other = entry ∨ other ∈ cache.entries := by
  unfold put at member
  split at member
  · obtain ⟨earlier, earlierMember, rfl⟩ := List.mem_map.mp member
    split
    · exact .inl rfl
    · exact .inr earlierMember
  · rcases List.mem_append.mp member with earlier | last
    · exact .inr earlier
    · exact .inl (List.mem_singleton.mp last)

theorem insert_sound (sound : cache.Sound) (now : Nat) (text : Text)
    (config : HighlightConfig) :
    (cache.insert now text config (Highlights.compute text config)).Sound := by
  intro entry member
  rcases mem_put member with rfl | earlier
  · rfl
  · apply sound
    split at earlier
    · exact earlier
    · exact makeRoom_entries cache now earlier

theorem get_sound (sound : cache.Sound) (now : Nat) (text : Text)
    (config : HighlightConfig) :
    (∀ highlights, (cache.get now text config).1 = some highlights →
      highlights = Highlights.compute text config) ∧
      (cache.get now text config).2.Sound := by
  unfold get
  dsimp only
  split
  case h_1 => exact ⟨nofun, sound⟩
  case h_2 entry found =>
    split
    case isFalse => exact ⟨nofun, sound⟩
    case isTrue same =>
      split
      case isTrue =>
        refine ⟨?_, sound⟩
        rintro highlights ⟨⟩
        have exact_ : entry.Sound := sound entry (List.mem_of_find?_eq_some found)
        rw [CacheEntry.Sound, same.1, same.2] at exact_
        exact exact_
      case isFalse =>
        exact ⟨nofun, fun other member => sound other (erase_entries _ _ member)⟩

/-- A sound cache answers what would have been computed, and stays sound. -/
theorem getOrCompute_sound (sound : cache.Sound) (now : Nat) (text : Text)
    (config : HighlightConfig) :
    (cache.getOrCompute now text config).1.1 = Highlights.compute text config ∧
      (cache.getOrCompute now text config).2.Sound := by
  obtain ⟨answers, soundAfter⟩ := get_sound sound now text config
  unfold getOrCompute
  generalize cache.get now text config = result at answers soundAfter
  obtain ⟨found, after⟩ := result
  cases found with
  | some highlights => exact ⟨answers highlights rfl, soundAfter⟩
  | none => exact ⟨rfl, insert_sound soundAfter now text config⟩

theorem clear_sound (cache : Cache) : cache.clear.Sound := List.forall_mem_nil _

theorem empty_sound (keyOf : Text → HighlightConfig → UInt64)
    (capacity lifetime : Nat) : (empty keyOf capacity lifetime).Sound :=
  List.forall_mem_nil _

end Cache

end LogTint
