import LogTint.Proofs.ExtensionSets

/-!
# Saving extensions and asking for them again

An entry is trimmed before the dots are taken from its front, so white space behind the dots
stays in front of the extension.  When the extension is given as an entry again, trimming
takes it away.  All other extensions are left as they are, so a set that is saved and given
again is the same exactly if no entry had white space behind its dots.
-/

namespace LogTint

/-! ## Trimming -/

namespace Text

variable {text : Text} {drops : Char → Bool}

theorem head?_dropWhile_any (drops : Char → Bool) (text : Text) :
    (text.dropWhile drops).head?.any drops = false := by
  have stopped := List.head?_dropWhile_not drops text
  cases head : (text.dropWhile drops).head? with
  | none => rfl
  | some char =>
      rw [head] at stopped
      exact stopped

theorem dropWhile_eq_self (kept : text.head?.any drops = false) :
    text.dropWhile drops = text := by
  cases text with
  | nil => rfl
  | cons char rest =>
      rw [List.dropWhile_cons_of_neg]
      simpa using kept

/-- A trimmed text does not end in white space. -/
theorem getLast?_trim_any (text : Text) : text.trim.getLast?.any isBlank = false := by
  rw [trim, List.getLast?_reverse]
  exact head?_dropWhile_any isBlank _

theorem trim_eq_self (begins : text.head?.any isBlank = false)
    (ends : text.getLast?.any isBlank = false) : text.trim = text := by
  rw [← List.head?_reverse] at ends
  rw [trim, dropWhile_eq_self begins, dropWhile_eq_self ends, List.reverse_reverse]

/-- Trimming takes at least the first character of a text that begins with white space. -/
theorem length_trim_lt (begins : text.head?.any isBlank = true) :
    text.trim.length < text.length := by
  cases text with
  | nil => cases begins
  | cons blank rest =>
      have dropped : (blank :: rest).dropWhile isBlank = rest.dropWhile isBlank :=
        List.dropWhile_cons_of_pos begins
      have shorter := (List.rdropWhile_prefix isBlank (rest.dropWhile isBlank)).length_le
      have behind := (List.dropWhile_suffix isBlank (l := rest)).length_le
      rw [trim, dropped, List.length_cons]
      exact Nat.lt_succ_of_le (shorter.trans behind)

theorem isBlank_of_isAlpha {char : Char} (letter : char.isAlpha = true) :
    isBlank char = false := by
  simp only [Char.isAlpha, Char.isUpper, Char.isLower, Bool.or_eq_true, Bool.and_eq_true,
    decide_eq_true_eq, UInt32.le_iff_toNat_le, ge_iff_le] at letter
  change (65 ≤ char.toNat ∧ char.toNat ≤ 90) ∨ (97 ≤ char.toNat ∧ char.toNat ≤ 122) at letter
  rw [Bool.eq_false_iff]
  intro blank
  simp only [isBlank, Bool.or_eq_true, Bool.and_eq_true, decide_eq_true_eq] at blank
  omega

theorem isBlank_toLower (char : Char) : isBlank char.toLower = isBlank char := by
  by_cases capital : char.isUpper = true
  · have letter : char.isAlpha = true := by rw [Char.isAlpha, capital, Bool.true_or]
    rw [isBlank_of_isAlpha letter,
      isBlank_of_isAlpha (char.isAlpha_toLower_eq_isAlpha.trans letter)]
  · rw [Char.toLower_eq_of_not_isUpper capital]

theorem lowercase_eq_self (small : ∀ char ∈ text, char.isUpper = false) :
    text.lowercase = text := by
  refine (List.map_congr_left fun char member => ?_).trans (List.map_id text)
  exact Char.toLower_eq_of_not_isUpper (by rw [small char member]; exact Bool.false_ne_true)

/-- Small letters are as much white space as capitals. -/
theorem any_isBlank_toLower (char? : Option Char) :
    (char?.map Char.toLower).any isBlank = char?.any isBlank := by
  cases char? with
  | none => rfl
  | some char => exact isBlank_toLower char

end Text

namespace Extensions

variable {extension entry : Text} {entries : List Text}

/-! ## Kept extensions -/

/-- What is left of an entry begins with no dot, has no capitals and does not end in white
space. -/
structure IsNormal (extension : Text) : Prop where
  no_dot : extension.head? ≠ some '.'
  no_capital : ∀ char ∈ extension, char.isUpper = false
  no_blank_end : extension.getLast?.any Text.isBlank = false

theorem isNormal_normalize (entry : Text) : IsNormal (normalize entry) where
  no_dot dotted := by
    have stripped := Text.head?_dropWhile_any (· = '.') entry.trim
    rw [normalize, Text.lowercase, List.head?_map] at dotted
    obtain ⟨char, head, lowered⟩ := Option.map_eq_some_iff.mp dotted
    rw [head, (Text.toLower_eq_iff (by decide)).mp lowered] at stripped
    cases stripped
  no_capital char member := Text.isUpper_of_mem_lowercase member
  no_blank_end := by
    have ends := entry.getLast?_trim_any
    obtain ⟨dots, parts⟩ := List.dropWhile_suffix (· = '.') (l := entry.trim)
    rw [normalize, Text.lowercase, List.getLast?_map, Text.any_isBlank_toLower]
    cases stripped : entry.trim.dropWhile (· = '.') with
    | nil => rfl
    | cons char rest =>
        rw [← parts, stripped, List.getLast?_append_of_ne_nil _ (List.cons_ne_nil _ _)] at ends
        exact ends

/-- What does not begin with white space either is kept as it is. -/
theorem IsNormal.normalize_eq_self (normal : IsNormal extension)
    (begins : extension.head?.any Text.isBlank = false) : normalize extension = extension := by
  have undotted : extension.head?.any (· = '.') = false := by
    have first := normal.no_dot
    cases head : extension.head? with
    | none => rfl
    | some char =>
        rw [head] at first
        simpa using first
  rw [normalize, Text.trim_eq_self begins normal.no_blank_end, Text.dropWhile_eq_self undotted,
    Text.lowercase_eq_self normal.no_capital]

/-- An extension that begins with white space becomes shorter. -/
theorem length_normalize_lt (begins : extension.head?.any Text.isBlank = true) :
    (normalize extension).length < extension.length := by
  have shorter := (List.dropWhile_suffix (· = '.') (l := extension.trim)).length_le
  rw [normalize, Text.lowercase, List.length_map]
  exact shorter.trans_lt (Text.length_trim_lt begins)

/-- Trimmed, the entry begins with dots, and white space stands behind them. -/
def BlankBehindDots (entry : Text) : Prop :=
  ∃ (dots : Text) (blank : Char) (rest : Text), entry.trim = dots ++ blank :: rest ∧
    (∀ char ∈ dots, char = '.') ∧ Text.isBlank blank = true

theorem blankBehindDots_iff :
    BlankBehindDots entry ↔ (normalize entry).head?.any Text.isBlank = true := by
  rw [normalize, Text.lowercase, List.head?_map, Text.any_isBlank_toLower]
  constructor
  · rintro ⟨dots, blank, rest, parts, dotted, isBlank⟩
    have passed : ∀ char ∈ dots, decide (char = '.') = true := fun char member =>
      decide_eq_true (dotted char member)
    have noDot : decide (blank = '.') = false := by
      apply decide_eq_false
      rintro rfl
      cases isBlank
    rw [parts, List.dropWhile_append_of_pos passed, List.dropWhile_cons, noDot]
    exact isBlank
  · intro begins
    cases stripped : entry.trim.dropWhile (· = '.') with
    | nil =>
        rw [stripped] at begins
        cases begins
    | cons blank rest =>
        rw [stripped] at begins
        refine ⟨entry.trim.takeWhile (· = '.'), blank, rest, ?_, ?_, begins⟩
        · rw [← stripped, List.takeWhile_append_dropWhile]
        · intro char member
          exact of_decide_eq_true (List.all_eq_true.mp List.all_takeWhile char member)

/-! ## Asking again -/

theorem isNormal_of_mem (member : extension ∈ (ofEntries entries).members) :
    IsNormal extension := by
  rcases mem_ofEntries_iff.mp member with ⟨⟨entry, _, rfl⟩, _⟩ | ⟨_, rfl⟩
  · exact isNormal_normalize entry
  · exact isNormal_normalize fallback

theorem exists_mem_ofEntries (entries : List Text) :
    ∃ extension, extension ∈ (ofEntries entries).members := by
  by_cases nothing : ∀ entry ∈ entries, normalize entry = []
  · exact ⟨fallback, mem_ofEntries_iff.mpr (.inr ⟨nothing, rfl⟩)⟩
  · push Not at nothing
    obtain ⟨entry, asked, filled⟩ := nothing
    exact ⟨_, mem_ofEntries_iff.mpr (.inl ⟨⟨entry, asked, rfl⟩, filled⟩)⟩

/-- Extensions that do not begin with white space are the same when they are given again. -/
theorem ofEntries_members_eq
    (clean : ∀ extension ∈ (ofEntries entries).members,
      extension.head?.any Text.isBlank = false) :
    ofEntries (ofEntries entries).members = ofEntries entries := by
  have kept : ∀ extension ∈ (ofEntries entries).members, normalize extension = extension :=
    fun extension member => (isNormal_of_mem member).normalize_eq_self (clean extension member)
  refine eq_of_mem_iff (pairwise_ofEntries _) (pairwise_ofEntries _) fun extension => ?_
  rw [mem_ofEntries_iff]
  constructor
  · rintro (⟨⟨saved, member, rfl⟩, _⟩ | ⟨nothing, _⟩)
    · rwa [kept saved member]
    · obtain ⟨saved, member⟩ := exists_mem_ofEntries entries
      have empty := nothing saved member
      rw [kept saved member] at empty
      exact absurd empty (ne_nil_of_mem_ofEntries member)
  · intro member
    exact .inl ⟨⟨extension, member, kept extension member⟩, ne_nil_of_mem_ofEntries member⟩

/-- The longest extension that begins with white space is lost: what is left of a shorter one
is shorter still. -/
theorem ofEntries_members_ne (member : extension ∈ (ofEntries entries).members)
    (begins : extension.head?.any Text.isBlank = true) :
    ofEntries (ofEntries entries).members ≠ ofEntries entries := by
  obtain ⟨longest, isLongest, most⟩ := Finset.exists_max_image
    ((ofEntries entries).members.toFinset.filter (·.head?.any Text.isBlank)) List.length
    ⟨extension, by simp [member, begins]⟩
  obtain ⟨inside, blank⟩ := Finset.mem_filter.mp isLongest
  intro same
  have asked : longest ∈ (ofEntries (ofEntries entries).members).members := by
    rw [same]
    exact List.mem_toFinset.mp inside
  rcases mem_ofEntries_iff.mp asked with ⟨⟨saved, savedMember, rfl⟩, _⟩ | ⟨_, rfl⟩
  · by_cases savedBegins : saved.head?.any Text.isBlank = true
    · have shorter := length_normalize_lt savedBegins
      have bounded := most saved
        (Finset.mem_filter.mpr ⟨List.mem_toFinset.mpr savedMember, savedBegins⟩)
      omega
    · have clean := Bool.eq_false_iff.mpr savedBegins
      rw [(isNormal_of_mem savedMember).normalize_eq_self clean] at blank
      cases clean.symm.trans blank
  · cases blank

end Extensions

namespace Settings

/-- A set of extensions that is saved and given again is the same exactly if no entry had
white space behind its dots.  Whatever the entries, an extension is not empty, begins with no
dot, has no capitals and does not end in white space; and it does not begin with white space
unless it comes from such an entry. -/
theorem reload_eq_iff (settings : Settings) (entries : List Text) :
    let saved := settings.withExtensions entries
    (saved.withExtensions saved.extensions.members = saved ↔
      ∀ entry ∈ entries, ¬Extensions.BlankBehindDots entry) ∧
    ∀ extension ∈ saved.extensions.members,
      extension ≠ [] ∧ extension.head? ≠ some '.' ∧
      (∀ char ∈ extension, char.isUpper = false) ∧
      extension.getLast?.any Text.isBlank = false ∧
      (extension.head?.any Text.isBlank = true ↔
        ∃ entry ∈ entries, Extensions.BlankBehindDots entry ∧
          Extensions.normalize entry = extension) := by
  intro saved
  have origin {extension : Text} (member : extension ∈ saved.extensions.members) :
      extension.head?.any Text.isBlank = true ↔
        ∃ entry ∈ entries, Extensions.BlankBehindDots entry ∧
          Extensions.normalize entry = extension := by
    constructor
    · intro begins
      rcases Extensions.mem_ofEntries_iff.mp member with ⟨⟨entry, asked, rfl⟩, _⟩ | ⟨_, rfl⟩
      · exact ⟨entry, asked, Extensions.blankBehindDots_iff.mpr begins, rfl⟩
      · cases begins
    · rintro ⟨entry, _, blank, rfl⟩
      exact Extensions.blankBehindDots_iff.mp blank
  constructor
  · constructor
    · intro same entry asked blank
      have begins := Extensions.blankBehindDots_iff.mp blank
      have filled : Extensions.normalize entry ≠ [] := by
        intro empty
        rw [empty] at begins
        cases begins
      exact Extensions.ofEntries_members_ne
        (Extensions.mem_ofEntries_iff.mpr (.inl ⟨⟨entry, asked, rfl⟩, filled⟩)) begins
        (congrArg extensions same)
    · intro clean
      have kept : Extensions.ofEntries (Extensions.ofEntries entries).members =
          Extensions.ofEntries entries := by
        refine Extensions.ofEntries_members_eq fun extension member => ?_
        rw [Bool.eq_false_iff]
        intro begins
        obtain ⟨entry, asked, blank, _⟩ := (origin member).mp begins
        exact clean entry asked blank
      exact congrArg (fun set => { settings with extensions := set }) kept
  · intro extension member
    have normal := Extensions.isNormal_of_mem member
    exact ⟨Extensions.ne_nil_of_mem_ofEntries member, normal.no_dot, normal.no_capital,
      normal.no_blank_end, origin member⟩

/-- A dot, a blank and an extension. -/
def spacedEntries : List Text := [['.', ' ', 'L', 'o', 'g'], ['t', 'x', 't']]

theorem reload_eq_iff_of_spacedEntries :
    let saved := standard.withExtensions spacedEntries
    Extensions.BlankBehindDots ['.', ' ', 'L', 'o', 'g'] ∧
      saved.withExtensions saved.extensions.members ≠ saved ∧
      [' ', 'l', 'o', 'g'] ∈ saved.extensions.members ∧
      ([' ', 'l', 'o', 'g'] : Text).getLast?.any Text.isBlank = false := by
  intro saved
  have blank : Extensions.BlankBehindDots ['.', ' ', 'L', 'o', 'g'] :=
    ⟨['.'], ' ', ['L', 'o', 'g'], by decide, fun _ member => List.mem_singleton.mp member,
      by decide⟩
  obtain ⟨same, kept⟩ := reload_eq_iff standard spacedEntries
  have member : [' ', 'l', 'o', 'g'] ∈ saved.extensions.members := by decide
  exact ⟨blank, fun unchanged => same.mp unchanged _ List.mem_cons_self blank, member,
    (kept _ member).2.2.2.1⟩

/-- What was saved begins with white space, and is another set when it is given again. -/
theorem reload_loses_blank :
    let saved := standard.withExtensions [['.', ' ', 'l', 'o', 'g']]
    saved.extensions.members = [[' ', 'l', 'o', 'g']] ∧
      (saved.withExtensions saved.extensions.members).extensions.members =
        [['l', 'o', 'g']] ∧
      saved.withExtensions saved.extensions.members ≠ saved := by
  intro saved
  have kept : saved.extensions.members = [[' ', 'l', 'o', 'g']] := by decide
  have again : (saved.withExtensions saved.extensions.members).extensions.members =
      [['l', 'o', 'g']] := by decide
  refine ⟨kept, again, fun same => ?_⟩
  rw [same, kept] at again
  cases again

end Settings

end LogTint
