import LogTint.Schedule.Registry
import Mathlib.Data.List.Nodup

/-!
# Looking documents up

What each operation on the registry does to the answer of a look-up.  Changes
of an entry are assumed to keep its number.
-/

namespace LogTint.Registry

variable {registry : Registry} {id other : DocumentId} {entry : Entry}

theorem find?_id (found : registry.find? id = some entry) : entry.id = id := by
  simpa using List.find?_some found

theorem find?_mem (found : registry.find? id = some entry) :
    entry ∈ registry.entries :=
  List.mem_of_find?_eq_some found

theorem find?_add (registry : Registry) (added : Entry) (id : DocumentId) :
    (registry.add added).find? id =
      (registry.find? id).or (if added.id = id then some added else none) := by
  simp [find?, add, List.find?_append, List.find?_singleton]

theorem find?_add_some {added : Entry}
    (found : (registry.add added).find? id = some entry) :
    registry.find? id = some entry ∨
      registry.find? id = none ∧ added.id = id ∧ added = entry := by
  rw [find?_add] at found
  cases earlier : registry.find? id with
  | some other =>
      rw [earlier] at found
      exact .inl found
  | none =>
      rw [earlier, Option.none_or] at found
      split at found
      case isFalse => cases found
      case isTrue here => exact .inr ⟨rfl, here, Option.some.inj found⟩

theorem find?_erase (registry : Registry) (id other : DocumentId) :
    (registry.erase id).find? other =
      if other = id then none else registry.find? other := by
  unfold find? erase
  rw [List.find?_filter]
  by_cases same : other = id
  · subst other
    simp [List.find?_eq_none]
  · rw [if_neg same]
    congr 1
    funext entry
    by_cases here : entry.id = other
    · simp [here, same]
    · simp [here]

/-- Entries that keep their numbers are found where they were. -/
theorem find?_map {change : Entry → Entry} (keeps : ∀ entry, (change entry).id = entry.id)
    (entries : List Entry) (id : DocumentId) :
    (entries.map change).find? (·.id = id) = (entries.find? (·.id = id)).map change := by
  have same : (fun entry : Entry => decide (entry.id = id)) ∘ change =
      fun entry => decide (entry.id = id) := by
    funext entry
    exact congrArg (fun number => decide (number = id)) (keeps entry)
  rw [List.find?_map, same]

theorem find?_modify {change : Entry → Entry}
    (keeps : ∀ entry, (change entry).id = entry.id)
    (registry : Registry) (id other : DocumentId) :
    (registry.modify id change).find? other =
      if other = id then (registry.find? other).map change
      else registry.find? other := by
  have unmoved : ∀ entry : Entry,
      (if entry.id = id then change entry else entry).id = entry.id := by
    intro entry
    split
    · exact keeps entry
    · rfl
  have sameEntry : (registry.modify id change).find? other =
      (registry.find? other).map
        fun entry => if entry.id = id then change entry else entry :=
    find?_map unmoved registry.entries other
  rw [sameEntry]
  cases found : registry.find? other with
  | none => simp
  | some entry =>
      have number := find?_id found
      by_cases same : other = id
      · simp [same, number]
      · simp [same, number]

theorem find?_modifyAll {change : Entry → Entry}
    (keeps : ∀ entry, (change entry).id = entry.id)
    (registry : Registry) (id : DocumentId) :
    (registry.modifyAll change).find? id = (registry.find? id).map change :=
  find?_map keeps registry.entries id

theorem find?_modify_self {change : Entry → Entry}
    (keeps : ∀ entry, (change entry).id = entry.id)
    (found : registry.find? id = some entry) :
    (registry.modify id change).find? id = some (change entry) := by
  rw [find?_modify keeps, if_pos rfl, found, Option.map_some]

theorem contains_iff :
    registry.contains id ↔ ∃ entry, registry.find? id = some entry := by
  rw [contains, Option.isSome_iff_exists]

theorem not_contains_iff : registry.contains id = false ↔ registry.find? id = none := by
  rw [contains, Option.isSome_eq_false_iff, Option.isNone_iff_eq_none]

theorem mem_ids_iff : id ∈ registry.ids ↔ ∃ entry, registry.find? id = some entry := by
  rw [← Option.isSome_iff_exists]
  simp [ids, find?, List.find?_isSome]

theorem find?_of_mem (distinct : registry.ids.Nodup)
    (member : entry ∈ registry.entries) :
    registry.find? entry.id = some entry := by
  obtain ⟨found, success⟩ :=
    mem_ids_iff.mp (List.mem_map_of_mem (f := Entry.id) member)
  have same : found = entry :=
    List.inj_on_of_nodup_map distinct (find?_mem success) member (find?_id success)
  rw [success, same]

@[simp] theorem ids_add (registry : Registry) (added : Entry) :
    (registry.add added).ids = registry.ids ++ [added.id] := by
  simp [ids, add]

theorem ids_modify {change : Entry → Entry}
    (keeps : ∀ entry, (change entry).id = entry.id)
    (registry : Registry) (id : DocumentId) :
    (registry.modify id change).ids = registry.ids := by
  simp only [ids, modify, List.map_map]
  apply List.map_congr_left
  intro entry _
  simp only [Function.comp_apply]
  split
  · exact keeps entry
  · rfl

theorem ids_erase_sublist (registry : Registry) (id : DocumentId) :
    (registry.erase id).ids.Sublist registry.ids :=
  List.filter_sublist.map Entry.id

theorem ids_modifyAll {change : Entry → Entry}
    (keeps : ∀ entry, (change entry).id = entry.id) (registry : Registry) :
    (registry.modifyAll change).ids = registry.ids := by
  simp [ids, modifyAll, Function.comp_def, keeps]

/-- Changes of an entry that is erased afterwards leave no trace. -/
theorem erase_modify {change : Entry → Entry}
    (keeps : ∀ entry, (change entry).id = entry.id)
    (registry : Registry) (id : DocumentId) :
    (registry.modify id change).erase id = registry.erase id := by
  unfold modify erase
  congr 1
  induction registry.entries with
  | nil => rfl
  | cons entry entries induction =>
      by_cases here : entry.id = id
      · simpa [here, keeps] using induction
      · simpa [here] using induction

theorem modify_modify {first second : Entry → Entry}
    (keeps : ∀ entry, (first entry).id = entry.id)
    (registry : Registry) (id : DocumentId) :
    (registry.modify id first).modify id second =
      registry.modify id (second ∘ first) := by
  unfold modify
  congr 1
  rw [List.map_map]
  apply List.map_congr_left
  intro entry _
  by_cases here : entry.id = id
  · simp [here, keeps]
  · simp [here]

end LogTint.Registry
