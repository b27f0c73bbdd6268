import LogTint.Settings.Settings
import Mathlib

/-!
# What is in a set of extensions

Inserting keeps a set in order, so a set is known from its members.  A list of entries asks
for what is left of each entry that something is left of, and for the fallback if nothing is
left of any.
-/

namespace LogTint

/-! ## Small letters -/

namespace Text

variable {text : Text} {char other : Char}

theorem lowercase_lowercase (text : Text) : text.lowercase.lowercase = text.lowercase := by
  simp [lowercase]

theorem isUpper_of_mem_lowercase (member : char ∈ text.lowercase) : char.isUpper = false := by
  obtain ⟨original, _, rfl⟩ := List.mem_map.mp member
  exact original.isUpper_toLower_eq_false

/-- Only letters become letters. -/
theorem toLower_eq_iff (noLetter : other.isAlpha = false) : char.toLower = other ↔ char = other := by
  by_cases capital : char.isUpper = true
  · have letter : char.isAlpha = true := by rw [Char.isAlpha, capital, Bool.true_or]
    have lowered := char.isAlpha_toLower_eq_isAlpha.trans letter
    constructor
    · rintro rfl
      cases noLetter.symm.trans lowered
    · rintro rfl
      cases noLetter.symm.trans letter
  · rw [Char.toLower_eq_of_not_isUpper capital]

theorem mem_lowercase_iff (noLetter : other.isAlpha = false) :
    other ∈ text.lowercase ↔ other ∈ text := by
  simp [lowercase, toLower_eq_iff noLetter]

end Text

namespace Extensions

variable {extension other : Text} {members entries : List Text}

theorem lowercase_normalize (entry : Text) :
    (normalize entry).lowercase = normalize entry :=
  Text.lowercase_lowercase _

/-! ## Inserting -/

@[simp] theorem mem_insertSorted :
    other ∈ insertSorted extension members ↔ other = extension ∨ other ∈ members := by
  induction members with
  | nil => simp [insertSorted]
  | cons member later induction =>
      unfold insertSorted
      split
      case isTrue same => simp [same]
      case isFalse =>
          split
          case isTrue => simp
          case isFalse => simp [induction, or_left_comm]

theorem pairwise_insertSorted (ordered : members.Pairwise (· < ·)) :
    (insertSorted extension members).Pairwise (· < ·) := by
  induction members with
  | nil => simp [insertSorted]
  | cons member later induction =>
      obtain ⟨least, orderedLater⟩ := List.pairwise_cons.mp ordered
      unfold insertSorted
      split
      case isTrue => exact ordered
      case isFalse different =>
          split
          case isTrue below =>
              refine List.pairwise_cons.mpr ⟨fun other inside => ?_, ordered⟩
              rcases List.mem_cons.mp inside with rfl | inLater
              · exact below
              · exact lt_trans below (least other inLater)
          case isFalse notBelow =>
              refine List.pairwise_cons.mpr ⟨fun other inside => ?_, induction orderedLater⟩
              rcases mem_insertSorted.mp inside with rfl | inLater
              · exact lt_of_le_of_ne (not_lt.mp notBelow) (Ne.symm different)
              · exact least other inLater

theorem mem_foldl_insert {extensions : Extensions} :
    other ∈ (entries.foldl insert extensions).members ↔
      other ∈ extensions.members ∨ other ∈ entries := by
  induction entries generalizing extensions with
  | nil => simp
  | cons entry later induction =>
      rw [List.foldl_cons, induction, insert, mem_insertSorted, List.mem_cons, or_assoc,
        or_left_comm]

@[simp] theorem mem_ofList : other ∈ (ofList entries).members ↔ other ∈ entries := by
  simp [ofList, mem_foldl_insert]

theorem pairwise_ofList (entries : List Text) : (ofList entries).members.Pairwise (· < ·) := by
  have step (extensions : Extensions) (ordered : extensions.members.Pairwise (· < ·)) :
      (entries.foldl insert extensions).members.Pairwise (· < ·) := by
    induction entries generalizing extensions with
    | nil => exact ordered
    | cons entry later induction =>
        exact induction (extensions.insert entry) (pairwise_insertSorted ordered)
  exact step ⟨[]⟩ .nil

/-- Sets in order are known from their members. -/
theorem eq_of_mem_iff {left right : Extensions} (leftOrdered : left.members.Pairwise (· < ·))
    (rightOrdered : right.members.Pairwise (· < ·))
    (same : ∀ extension, extension ∈ left.members ↔ extension ∈ right.members) :
    left = right := by
  have nodup {members : List Text} (ordered : members.Pairwise (· < ·)) : members.Nodup := by
    refine ordered.imp ?_
    rintro extension _ below rfl
    exact lt_irrefl _ below
  have sameMembers : left.members = right.members := by
    refine List.Perm.eq_of_pairwise (fun _ _ _ _ below above => ?_) leftOrdered rightOrdered
      ((List.perm_ext_iff_of_nodup (nodup leftOrdered) (nodup rightOrdered)).mpr same)
    exact absurd above (lt_asymm below)
  exact congrArg mk sameMembers

/-! ## Asking for a set -/

theorem mem_ofEntries_iff :
    extension ∈ (ofEntries entries).members ↔
      (∃ entry ∈ entries, normalize entry = extension) ∧ extension ≠ [] ∨
        (∀ entry ∈ entries, normalize entry = []) ∧ extension = fallback := by
  have kept : extension ∈ (entries.map normalize).filter (!·.isEmpty) ↔
      (∃ entry ∈ entries, normalize entry = extension) ∧ extension ≠ [] := by
    simp
  have nothing : ((entries.map normalize).filter (!·.isEmpty)).isEmpty = true ↔
      ∀ entry ∈ entries, normalize entry = [] := by
    simp
  unfold ofEntries
  dsimp only
  split
  case isTrue empty =>
      rw [mem_ofList, List.mem_singleton]
      have alone := nothing.mp empty
      constructor
      · exact fun same => .inr ⟨alone, same⟩
      · rintro (⟨⟨entry, member, rfl⟩, filled⟩ | ⟨_, same⟩)
        · exact absurd (alone entry member) filled
        · exact same
  case isFalse filled =>
      rw [mem_ofList, kept]
      exact ⟨.inl, fun either => either.resolve_right fun none => filled (nothing.mpr none.1)⟩

theorem ne_nil_of_mem_ofEntries (member : extension ∈ (ofEntries entries).members) :
    extension ≠ [] := by
  rcases mem_ofEntries_iff.mp member with ⟨_, filled⟩ | ⟨_, rfl⟩
  · exact filled
  · exact List.cons_ne_nil _ _

theorem pairwise_ofEntries (entries : List Text) :
    (ofEntries entries).members.Pairwise (· < ·) := by
  unfold ofEntries
  dsimp only
  split <;> exact pairwise_ofList _

end Extensions

end LogTint
