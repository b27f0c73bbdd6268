import LogTint.Settings.Path
import Mathlib.Data.List.Induction

/-!
# Names of files

The name of a file is the last component of its path.  What stands before it ends in a
slash, and behind it only slashes and single dots are passed over.  The name is split at
its last dot.  So the paths with an extension are those that are written as a directory, a
stem, a dot, the extension and what is passed over.
-/

namespace LogTint.Path

/-- What may stand before the name of a file. -/
inductive IsDirectory : List UInt8 → Prop where
  | empty : IsDirectory []
  | append_slash (parent : List UInt8) : IsDirectory (parent ++ [slash])

/-- What is passed over behind the name of a file: slashes, and single dots behind one. -/
inductive IsTrailing : List UInt8 → Prop where
  | empty : IsTrailing []
  | append_slash {trailing : List UInt8} :
      IsTrailing trailing → IsTrailing (trailing ++ [slash])
  | append_dot {trailing : List UInt8} :
      IsTrailing trailing → IsTrailing (trailing ++ [slash, dot])

/-- What counts as a component. -/
structure IsComponent (name : List UInt8) : Prop where
  slash_notMem : slash ∉ name
  ne_nil : name ≠ []
  ne_dot : name ≠ [dot]

variable {directory name stem extension trailing : List UInt8} {path : Path}

/-! ## Components -/

theorem components_append (left right : List UInt8) :
    components ⟨left ++ slash :: right⟩ = components ⟨left⟩ ++ components ⟨right⟩ := by
  simp only [components]
  rw [List.splitOn_append_cons_self, List.filter_append]

@[simp] theorem components_nil : components ⟨[]⟩ = [] := by
  simp [components]

theorem components_of_slash_notMem (flat : slash ∉ name) :
    components ⟨name⟩ = if name = [] ∨ name = [dot] then [] else [name] := by
  simp only [components]
  rw [List.splitOn_eq_singleton flat]
  by_cases empty : name = []
  · simp [empty]
  · by_cases single : name = [dot] <;> simp [empty, single]

theorem IsComponent.components_eq (counts : IsComponent name) :
    components ⟨name⟩ = [name] := by
  rw [components_of_slash_notMem counts.slash_notMem,
    if_neg (not_or_intro counts.ne_nil counts.ne_dot)]

theorem IsDirectory.components_append (leads : IsDirectory directory)
    (counts : IsComponent name) :
    components ⟨directory ++ name⟩ = components ⟨directory⟩ ++ [name] := by
  cases leads with
  | empty =>
      rw [List.nil_append, counts.components_eq, components_nil]
      rfl
  | append_slash parent =>
      rw [List.append_assoc, List.singleton_append, Path.components_append,
        Path.components_append, counts.components_eq, components_nil, List.append_nil]

theorem IsTrailing.components_append (passed : IsTrailing trailing) (front : List UInt8) :
    components ⟨front ++ trailing⟩ = components ⟨front⟩ := by
  induction passed with
  | empty => rw [List.append_nil]
  | append_slash _ induction =>
      rw [← List.append_assoc, Path.components_append, components_nil, List.append_nil,
        induction]
  | append_dot _ induction =>
      have single : components ⟨[dot]⟩ = [] := by
        rw [components_of_slash_notMem (by decide), if_pos (.inr rfl)]
      rw [← List.append_assoc, Path.components_append, single, List.append_nil, induction]

/-- Every path can be cut behind its last slash. -/
theorem exists_cut_behind_slash (bytes : List UInt8) :
    ∃ directory last, bytes = directory ++ last ∧ IsDirectory directory ∧ slash ∉ last := by
  induction bytes using List.reverseRecOn with
  | nil => exact ⟨[], [], rfl, .empty, List.not_mem_nil⟩
  | append_singleton bytes byte induction =>
      by_cases isSlash : byte = slash
      · subst isSlash
        exact ⟨bytes ++ [slash], [], (List.append_nil _).symm, .append_slash bytes,
          List.not_mem_nil⟩
      · obtain ⟨directory, last, rfl, leads, flat⟩ := induction
        refine ⟨directory, last ++ [byte], List.append_assoc .., leads, ?_⟩
        simp [flat, Ne.symm isSlash]

/-- A path has no component, or it ends in one and what is passed over behind it. -/
theorem components_eq_nil_or_exists (bytes : List UInt8) :
    components ⟨bytes⟩ = [] ∨
      ∃ directory name trailing, bytes = directory ++ name ++ trailing ∧
        IsDirectory directory ∧ IsComponent name ∧ IsTrailing trailing := by
  induction length : bytes.length using Nat.strongRecOn generalizing bytes with
  | ind count induction =>
      obtain ⟨directory, last, rfl, leads, flat⟩ := exists_cut_behind_slash bytes
      by_cases counts : last = [] ∨ last = [dot]
      · -- Nothing counts behind the last slash, so the search goes on before it.
        cases leads with
        | empty =>
            left
            rw [List.nil_append, components_of_slash_notMem flat, if_pos counts]
        | append_slash parent =>
            have passed : IsTrailing (slash :: last) := by
              rcases counts with rfl | rfl
              · exact .append_slash .empty
              · exact .append_dot .empty
            have regroup : parent ++ [slash] ++ last = parent ++ slash :: last := by simp
            have shorter : parent.length < count := by
              rw [← length]
              simp
            rw [regroup, passed.components_append]
            rcases induction _ shorter parent rfl with none | found
            · exact .inl none
            · obtain ⟨directory, name, trailing, rfl, leads, counted, before⟩ := found
              refine .inr ⟨directory, name, trailing ++ slash :: last, ?_, leads, counted, ?_⟩
              · rw [List.append_assoc _ trailing]
              · rcases counts with rfl | rfl
                · exact .append_slash before
                · exact .append_dot before
      · obtain ⟨filled, noDot⟩ := not_or.mp counts
        exact .inr ⟨directory, last, [], (List.append_nil _).symm, leads,
          ⟨flat, filled, noDot⟩, .empty⟩

/-- The last component is the name that stands between a directory and what is passed
over. -/
theorem getLast?_components_eq_some_iff :
    path.components.getLast? = some name ↔ IsComponent name ∧
      ∃ directory trailing, path.bytes = directory ++ name ++ trailing ∧
        IsDirectory directory ∧ IsTrailing trailing := by
  have last {directory name trailing : List UInt8} (leads : IsDirectory directory)
      (counts : IsComponent name) (passed : IsTrailing trailing) :
      (components ⟨directory ++ name ++ trailing⟩).getLast? = some name := by
    rw [passed.components_append, leads.components_append counts, List.getLast?_append]
    rfl
  obtain ⟨bytes⟩ := path
  constructor
  · intro found
    rcases components_eq_nil_or_exists bytes with none | some
    · rw [none] at found
      cases found
    · obtain ⟨directory, other, trailing, rfl, leads, counts, passed⟩ := some
      cases (last leads counts passed).symm.trans found
      exact ⟨counts, directory, trailing, rfl, leads, passed⟩
  · rintro ⟨counts, directory, trailing, rfl, leads, passed⟩
    exact last leads counts passed

theorem fileName?_eq_some_iff :
    path.fileName? = some name ↔ (IsComponent name ∧ name ≠ [dot, dot]) ∧
      ∃ directory trailing, path.bytes = directory ++ name ++ trailing ∧
        IsDirectory directory ∧ IsTrailing trailing := by
  rw [fileName?, Option.filter_eq_some_iff, getLast?_components_eq_some_iff,
    decide_eq_true_eq, and_right_comm]

/-! ## Extensions -/

/-- A name is split at the dot behind which there is no other. -/
theorem splitAtLastDot?_eq_some_iff :
    splitAtLastDot? name = some (stem, extension) ↔
      dot ∉ extension ∧ name = stem ++ dot :: extension := by
  unfold splitAtLastDot?
  constructor
  · intro split
    have parts := List.takeWhile_append_dropWhile (p := (· ≠ dot)) (l := name.reverse)
    cases rest : name.reverse.dropWhile (· ≠ dot) with
    | nil =>
        rw [rest] at split
        cases split
    | cons byte before =>
        have isDot : byte = dot := by
          have stopped := List.head?_dropWhile_not (· ≠ dot) name.reverse
          rw [rest] at stopped
          simpa using stopped
        subst isDot
        rw [rest] at split parts
        obtain ⟨rfl, rfl⟩ := Prod.mk.inj (Option.some.inj split)
        constructor
        · intro member
          have different := List.all_eq_true.mp List.all_takeWhile dot
            (List.mem_reverse.mp member)
          simp at different
        · have whole := congrArg List.reverse parts
          rw [List.reverse_reverse, List.reverse_append, List.reverse_cons,
            List.append_assoc] at whole
          exact whole.symm
  · rintro ⟨last, rfl⟩
    have different : ∀ byte ∈ extension.reverse, decide (byte ≠ dot) = true := by
      intro byte member
      rw [decide_eq_true_eq]
      rintro rfl
      exact last (List.mem_reverse.mp member)
    have reversed : (stem ++ dot :: extension).reverse =
        extension.reverse ++ dot :: stem.reverse := by simp
    rw [reversed, List.dropWhile_append_of_pos different,
      List.takeWhile_append_of_pos different]
    simp

/-- A stem, a dot and an extension together count as a component if no slash is in them. -/
theorem isComponent_append_iff (filled : stem ≠ []) :
    IsComponent (stem ++ dot :: extension) ↔ slash ∉ stem ∧ slash ∉ extension := by
  constructor
  · intro counts
    have flat := counts.slash_notMem
    rw [List.mem_append, List.mem_cons] at flat
    exact ⟨fun member => flat (.inl member), fun member => flat (.inr (.inr member))⟩
  · rintro ⟨flat, flatExtension⟩
    refine ⟨?_, ?_, ?_⟩
    · simp [flat, flatExtension, show slash ≠ dot by decide]
    · simp
    · intro single
      have length := congrArg List.length single
      have positive := List.length_pos_iff.mpr filled
      simp only [List.length_append, List.length_cons, List.length_nil] at length
      omega

/-- The paths with an extension.  Of all stems and extensions without a slash only those
that together make two dots are left out. -/
theorem extension?_eq_some_iff :
    path.extension? = some extension ↔ ∃ directory stem trailing,
      path.bytes = directory ++ (stem ++ dot :: extension) ++ trailing ∧
      IsDirectory directory ∧ (stem ≠ [] ∧ slash ∉ stem) ∧
      (dot ∉ extension ∧ slash ∉ extension) ∧ ¬(stem = [dot] ∧ extension = []) ∧
      IsTrailing trailing := by
  have twoDots (stem extension : List UInt8) (filled : stem ≠ []) :
      stem ++ dot :: extension = [dot, dot] ↔ stem = [dot] ∧ extension = [] := by
    cases stem with
    | nil => exact absurd rfl filled
    | cons byte rest => cases rest <;> simp
  simp only [extension?, Option.bind_eq_some_iff, Prod.exists, fileName?_eq_some_iff,
    splitAtLastDot?_eq_some_iff, Option.ite_none_left_eq_some, List.isEmpty_iff,
    Option.some.injEq]
  constructor
  · rintro ⟨name, ⟨⟨counts, noParent⟩, directory, trailing, split, leads, passed⟩, stem,
      extension, ⟨last, rfl⟩, filled, rfl⟩
    obtain ⟨flat, flatExtension⟩ := (isComponent_append_iff filled).mp counts
    exact ⟨directory, stem, trailing, split, leads, ⟨filled, flat⟩, ⟨last, flatExtension⟩,
      fun both => noParent ((twoDots stem extension filled).mpr both), passed⟩
  · rintro ⟨directory, stem, trailing, split, leads, ⟨filled, flat⟩, ⟨last, flatExtension⟩,
      noParent, passed⟩
    exact ⟨stem ++ dot :: extension, ⟨⟨(isComponent_append_iff filled).mpr ⟨flat, flatExtension⟩,
      fun both => noParent ((twoDots stem extension filled).mp both)⟩, directory, trailing,
      split, leads, passed⟩, stem, _, ⟨last, rfl⟩, filled, rfl⟩

end LogTint.Path
