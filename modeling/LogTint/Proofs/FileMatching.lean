import LogTint.Proofs.ExtensionSets
import LogTint.Proofs.FileNames

/-!
# Files with a chosen extension

The extensions that entries ask for are accepted unless a dot or a separator is left in one
of them.  An accepted extension has its files: in any directory, with any stem, in capitals
as in small letters.  And a file that matches has one of the extensions behind its last dot.
-/

namespace LogTint

namespace Extensions

variable {extensions : Extensions} {extension : Text} {entries : List Text}

/-! ## Accepted extensions -/

theorem isInvalid_eq_false_iff :
    isInvalid extension = false ↔
      extension ≠ [] ∧ ∀ char ∈ extension, char ≠ '.' ∧ char ≠ '/' ∧ char ≠ '\\' := by
  simp [isInvalid, and_assoc]

theorem invalid?_eq_none_iff :
    extensions.invalid? = none ↔ ∀ member ∈ extensions.members, isInvalid member = false := by
  simp [invalid?]

/-- The fallback is accepted, and so are entries without a dot or a separator inside. -/
theorem invalid?_ofEntries_eq_none_iff :
    (ofEntries entries).invalid? = none ↔
      ∀ entry ∈ entries, ∀ char ∈ normalize entry, char ≠ '.' ∧ char ≠ '/' ∧ char ≠ '\\' := by
  rw [invalid?_eq_none_iff]
  constructor
  · intro accepted entry asked char inside
    have kept : normalize entry ∈ (ofEntries entries).members :=
      mem_ofEntries_iff.mpr (.inl ⟨⟨entry, asked, rfl⟩, List.ne_nil_of_mem inside⟩)
    exact (isInvalid_eq_false_iff.mp (accepted _ kept)).2 char inside
  · intro clean extension member
    rcases mem_ofEntries_iff.mp member with ⟨⟨entry, asked, rfl⟩, filled⟩ | ⟨_, rfl⟩
    · exact isInvalid_eq_false_iff.mpr ⟨filled, clean entry asked⟩
    · decide

/-! ## Matching files -/

/-- A path matches if its extension is a text that is in the set in small letters. -/
theorem matchesPath_iff {path : Path} :
    extensions.matchesPath path = true ↔ ∃ extension : Text,
      path.extension? = some extension.bytes ∧ extension.lowercase ∈ extensions.members := by
  unfold matchesPath
  constructor
  · intro matched
    split at matched
    case h_2 => cases matched
    case h_1 extension read =>
        obtain ⟨form, found, decoded⟩ := Option.bind_eq_some_iff.mp read
        rw [← Text.ofBytes?_eq_some_iff.mp decoded] at found
        exact ⟨extension, found, List.contains_iff_mem.mp matched⟩
  · rintro ⟨extension, found, member⟩
    rw [found, Option.bind_some, Text.ofBytes?_eq_some_iff.mpr rfl]
    exact List.contains_iff_mem.mpr member

theorem dot_mem_bytes_iff : Path.dot ∈ extension.bytes ↔ '.' ∈ extension :=
  Text.mem_bytes_iff (show '.'.toNat < 128 by decide)

theorem slash_mem_bytes_iff : Path.slash ∈ extension.bytes ↔ '/' ∈ extension :=
  Text.mem_bytes_iff (show '/'.toNat < 128 by decide)

/-- A path matches if it is written with a stem, a dot and what is in small letters a member
of the set, unless that is two dots. -/
theorem matchesPath_iff_exists {path : Path} :
    extensions.matchesPath path = true ↔
      ∃ (directory stem : List UInt8) (extension : Text) (trailing : List UInt8),
        path.bytes = directory ++ stem ++ Path.dot :: extension.bytes ++ trailing ∧
        Path.IsDirectory directory ∧ (stem ≠ [] ∧ Path.slash ∉ stem) ∧
        ('.' ∉ extension ∧ '/' ∉ extension) ∧ ¬(stem = [Path.dot] ∧ extension = []) ∧
        Path.IsTrailing trailing ∧ extension.lowercase ∈ extensions.members := by
  simp only [matchesPath_iff, Path.extension?_eq_some_iff, dot_mem_bytes_iff,
    slash_mem_bytes_iff, Text.bytes_eq_nil_iff, List.append_assoc]
  constructor
  · rintro ⟨extension, ⟨directory, stem, trailing, split, leads, named, plain, noParent, passed⟩,
      member⟩
    exact ⟨directory, stem, extension, trailing, split, leads, named, plain, noParent, passed,
      member⟩
  · rintro ⟨directory, stem, extension, trailing, split, leads, named, plain, noParent, passed,
      member⟩
    exact ⟨extension, ⟨directory, stem, trailing, split, leads, named, plain, noParent, passed⟩,
      member⟩

end Extensions

namespace Settings

theorem validate_eq_ok_iff {settings : Settings} :
    settings.validate = .ok () ↔
      0 < settings.debounce ∧ 0 < settings.maxChars ∧ settings.extensions.invalid? = none := by
  have faultless : settings.validate = .ok () ↔ settings.fault? = none := by
    unfold validate
    cases settings.fault? <;> simp
  rw [faultless, fault?]
  by_cases noDebounce : settings.debounce = 0
  · simp [noDebounce]
  · by_cases noCeiling : settings.maxChars = 0
    · simp [noDebounce, noCeiling]
    · simp [noDebounce, noCeiling, Nat.pos_of_ne_zero]

/-- Settings with extensions that entries ask for are accepted exactly if there is a debounce
and a ceiling and no dot and no separator is left in an entry.  Then each entry of which
something is left has its files: any directory, any stem, a dot, and the extension in
capitals or small letters.  Under all settings only such files match: behind the last
component nothing but slashes and single dots may follow, the component is not made of two
dots, it has a stem, and what stands behind its last dot is in small letters a member. -/
theorem extensions_match_files (settings : Settings) (entries : List Text) :
    let chosen := settings.withExtensions entries
    (chosen.validate = .ok () ↔
      0 < settings.debounce ∧ 0 < settings.maxChars ∧
        ∀ entry ∈ entries, ∀ char ∈ Extensions.normalize entry,
          char ≠ '.' ∧ char ≠ '/' ∧ char ≠ '\\') ∧
    (chosen.validate = .ok () →
      ∀ entry ∈ entries, Extensions.normalize entry ≠ [] →
        ∀ (directory stem : List UInt8) (extension : Text),
          Path.IsDirectory directory → stem ≠ [] → Path.slash ∉ stem →
          extension.lowercase = (Extensions.normalize entry).lowercase →
          chosen.matchesFile ⟨directory ++ stem ++ Path.dot :: extension.bytes⟩ = true) ∧
    ∀ (other : Settings) (path : Path), other.matchesFile path = true ↔
      ∃ (directory stem : List UInt8) (extension : Text) (trailing : List UInt8),
        path.bytes = directory ++ stem ++ Path.dot :: extension.bytes ++ trailing ∧
        Path.IsDirectory directory ∧ (stem ≠ [] ∧ Path.slash ∉ stem) ∧
        ('.' ∉ extension ∧ '/' ∉ extension) ∧ ¬(stem = [Path.dot] ∧ extension = []) ∧
        Path.IsTrailing trailing ∧ extension.lowercase ∈ other.extensions.members := by
  intro chosen
  have validated : chosen.validate = .ok () ↔
      0 < settings.debounce ∧ 0 < settings.maxChars ∧
        ∀ entry ∈ entries, ∀ char ∈ Extensions.normalize entry,
          char ≠ '.' ∧ char ≠ '/' ∧ char ≠ '\\' := by
    rw [validate_eq_ok_iff, ← Extensions.invalid?_ofEntries_eq_none_iff]
    rfl
  refine ⟨validated, ?_, fun other path => Extensions.matchesPath_iff_exists⟩
  intro accepted entry asked kept directory stem extension leads named flat same
  obtain ⟨_, _, clean⟩ := validated.mp accepted
  have small : extension.lowercase = Extensions.normalize entry := by
    rw [same, Extensions.lowercase_normalize]
  have absent {char : Char} (noLetter : char.isAlpha = false)
      (unwanted : char ∉ Extensions.normalize entry) : char ∉ extension := by
    rwa [← Text.mem_lowercase_iff noLetter, small]
  refine Extensions.matchesPath_iff_exists.mpr ⟨directory, stem, extension, [],
    (List.append_nil _).symm, leads, ⟨named, flat⟩,
    ⟨absent (by decide) ?_, absent (by decide) ?_⟩, ?_, .empty, ?_⟩
  · exact fun member => (clean entry asked _ member).1 rfl
  · exact fun member => (clean entry asked _ member).2.1 rfl
  · rintro ⟨_, rfl⟩
    exact kept small.symm
  · rw [small]
    exact Extensions.mem_ofEntries_iff.mpr (.inl ⟨⟨entry, asked, rfl⟩, kept⟩)

/-- An entry with white space, a dot and capitals, and one of which nothing is left. -/
def dottedEntries : List Text := [[' ', '.', 'L', 'o', 'G'], ['.', '.']]

theorem extensions_match_files_of_dottedEntries :
    let chosen := standard.withExtensions dottedEntries
    chosen.validate = .ok () ∧ Extensions.normalize [' ', '.', 'L', 'o', 'G'] ≠ [] ∧
      chosen.matchesPath ['/', 'é', '/', '.', '.', 'L', 'O', 'g'] = true := by
  intro chosen
  have accepted : chosen.validate = .ok () := by decide
  have kept : Extensions.normalize [' ', '.', 'L', 'o', 'G'] ≠ [] := by decide
  obtain ⟨_, complete, _⟩ := extensions_match_files standard dottedEntries
  exact ⟨accepted, kept, complete accepted _ (by decide) kept (Text.bytes ['/', 'é', '/'])
    [Path.dot] ['L', 'O', 'g'] (.append_slash (Text.bytes ['/', 'é'])) (by decide) (by decide)
    (by decide)⟩

end Settings

end LogTint
