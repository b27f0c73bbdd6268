import LogTint.Proofs.Rewriting

/-!
# Codes that select a palette color for the foreground

Two things can be asked of the codes of a token: whether they are written like a palette
color for the foreground, and whether selecting one is all that they do to a style.  They
come to the same unless a zero stands before the number of the first code.
-/

namespace LogTint

/-! ## Numbers as they are written -/

namespace Code

/-- A code without a leading zero is written with the digits of its number. -/
theorem eq_digits_of_number? {code : Code} {value : Nat} (number : code.number? = some value)
    (bare : code.head? ≠ some '0') :
    code = ((Nat.digits 10 value).map Nat.digitChar).reverse := by
  obtain ⟨⟨nonempty, allowed⟩, denoted⟩ := Option.ite_none_right_eq_some.mp number
  cases denoted
  have isDigit (char : Char) (member : char ∈ code) :
      '0'.toNat ≤ char.toNat ∧ char.toNat ≤ '9'.toNat :=
    Char.isDigit_iff_toNat.mp (List.all_eq_true.mp allowed char member)
  have written : Nat.digits 10 (Nat.ofDigits 10
      (code.reverse.map fun digit => digit.toNat - '0'.toNat)) =
        code.reverse.map fun digit => digit.toNat - '0'.toNat := by
    apply Nat.digits_ofDigits 10 (by decide)
    · intro digit member
      obtain ⟨char, inside, rfl⟩ := List.mem_map.mp member
      have bounds := isDigit char (List.mem_reverse.mp inside)
      have nine : '9'.toNat = '0'.toNat + 9 := rfl
      omega
    · intro filled
      rw [List.getLast_map, List.getLast_reverse]
      obtain ⟨first, rest, rfl⟩ := List.exists_cons_of_ne_nil nonempty
      rw [List.head_cons]
      have bounds := isDigit first List.mem_cons_self
      have notZero : first.toNat ≠ '0'.toNat := fun same =>
        bare (congrArg some (Char.toNat_inj.mp same))
      omega
  rw [written, List.map_map, List.map_reverse, List.reverse_reverse]
  conv_lhs => rw [← List.map_id code]
  apply List.map_congr_left
  intro char member
  have bounds := isDigit char member
  apply Char.toNat_inj.mp
  have nine : '9'.toNat = '0'.toNat + 9 := rfl
  have zero : '0'.toNat = 48 := rfl
  rw [Function.comp_apply, Nat.toNat_digitChar_of_lt_ten (by omega), id]
  omega

end Code

/-- The codes of a token are runs of digits. -/
theorem Token.isDigit_of_mem_codes {token : Token} {code : Code}
    (admitted : token.sequence.isAdmitted true = true) (member : code ∈ token.codes) :
    ∀ char ∈ code, char.isDigit = true := by
  intro char inside
  have inParameters : char ∈ Code.join token.codes := Code.mem_join_of_mem member inside
  rw [codes, Sequence.codes, Code.join_split] at inParameters
  rcases (Sequence.isAdmitted_mk_iff.mp admitted).2 char inParameters with digit | rfl
  · exact digit
  · exact absurd inside (Code.semicolon_notMem_split _ code member)

/-! ## What the codes are written like -/

section Written

variable {group codes : List Code}

/-- A group that makes up all the codes is the codes. -/
theorem eq_of_codeGroups_singleton (alone : codeGroups codes = [group]) : codes = group := by
  have joined := (codeGroups_spec codes).2
  rw [alone, List.flatten_singleton] at joined
  exact joined.symm

theorem codeGroups_palette {first : Code} {layer : Layer}
    (opens : Layer.ofCode? first = some layer) (index : Code) :
    codeGroups [first, ['5'], index] = [[first, ['5'], index]] := by
  rw [codeGroups_indexed opens]
  simp [codeGroups]

theorem Category.ofValue?_ne_indexedColor (value : Nat) :
    ofValue? value ≠ some .indexedColor := by
  unfold ofValue?
  split_ifs <;> exact nofun

/-- Only a selector with one parameter makes a group a palette color. -/
theorem Category.eq_of_ofGroup? (grouped : CodeGroup group)
    (palette : ofGroup? group = some .indexedColor) :
    ∃ first index, group = [first, ['5'], index] := by
  cases grouped with
  | single code =>
      simp only [ofGroup?, List.length_nil] at palette
      split at palette
      · cases palette
      · split at palette
        · cases palette
        · exact absurd palette (ofValue?_ne_indexedColor _)
  | @indexed layer first opens index => exact ⟨first, index, rfl⟩
  | channels opens red green blue =>
      simp only [ofGroup?, List.length_cons, List.length_nil] at palette
      split at palette
      · cases palette
      · split at palette
        · cases palette
        · split at palette <;> cases palette

theorem Category.ofGroup?_palette {first index : Code} {layer : Layer}
    (opens : Layer.ofCode? first = some layer) :
    ofGroup? [first, ['5'], index] = some .indexedColor := by
  have selects := (Layer.ofCode?_isSome_iff first).mp (by rw [opens]; rfl)
  have nonempty : first ≠ [] := by
    rintro rfl
    rcases selects with none | none <;> cases none
  rcases selects with known | known <;> simp [ofGroup?, known, nonempty]

theorem Token.selectsIndexed_iff {token : Token} :
    token.selectsIndexed = true ↔
      ∃ index, index ≠ [] ∧ token.codes = [['3', '8'], ['5'], index] := by
  have opens : Layer.ofCode? ['3', '8'] = some .foreground := by decide
  constructor
  · intro selects
    unfold selectsIndexed at selects
    split at selects
    case h_2 => cases selects
    case h_1 first selector index codes =>
        simp only [Bool.and_eq_true, decide_eq_true_eq, Bool.not_eq_true',
          List.isEmpty_eq_false_iff] at selects
        obtain ⟨⟨rfl, written⟩, palette⟩ := selects
        obtain ⟨group, member, isPalette⟩ := List.any_eq_true.mp palette
        obtain ⟨grouped, joined⟩ := codeGroups_spec token.codes
        obtain ⟨other, parameter, rfl⟩ :=
          Category.eq_of_ofGroup? (grouped group member) (of_decide_eq_true isPalette)
        -- The group is as long as the codes.
        have within := List.sublist_flatten_of_mem member
        rw [joined, codes] at within
        cases within.eq_of_length rfl
        exact ⟨index, written, codes⟩
  · rintro ⟨index, written, codes⟩
    have nonempty : index.isEmpty = false := by simpa using written
    unfold selectsIndexed
    rw [codes]
    simp only [nonempty, Bool.not_false, decide_true, Bool.and_self, Bool.true_and]
    rw [hasCategory, Category.occursIn, codes, codeGroups_palette opens,
      List.any_cons, Category.ofGroup?_palette opens]
    rfl

end Written

/-! ## What the codes do -/

/-- Whether codes make up one group that selects a palette color for the foreground of
every style, and that does nothing else. -/
def SelectsForeground (codes : List Code) : Prop :=
  ∃ group, codeGroups codes = [group] ∧ ∃ index : UInt8, ∀ style : Style,
    style.apply group = { style with foreground := some (.indexed index) }

theorem selectsForeground_iff {codes : List Code} :
    SelectsForeground codes ↔ ∃ first index : Code, codes = [first, ['5'], index] ∧
      first.number? = some 38 ∧ index.number?.isSome = true := by
  constructor
  · rintro ⟨group, alone, index, selects⟩
    have grouped : CodeGroup group :=
      (codeGroups_spec codes).1 group (by rw [alone]; exact List.mem_cons_self)
    rw [eq_of_codeGroups_singleton alone]
    obtain ⟨after, selected⟩ := Style.exists_rendition grouped Style.plain
    have same := (Style.apply_of_rendition grouped selected).symm.trans (selects Style.plain)
    have foreground := congrArg Style.foreground same
    have background := congrArg Style.background same
    dsimp only [Style.plain] at foreground background
    cases selected with
    | @indexed layer first parameter value number chosen =>
        cases layer with
        | foreground =>
            exact ⟨first, parameter, rfl, number, by rw [chosen]; rfl⟩
        | background => cases background
    | @channels layer => cases layer <;> cases foreground
    | _ => cases foreground
  · rintro ⟨first, index, rfl, number, written⟩
    have opens : Layer.ofCode? first = some .foreground :=
      Layer.ofCode?_eq_some_iff.mpr number
    obtain ⟨value, chosen⟩ := Option.isSome_iff_exists.mp written
    refine ⟨_, codeGroups_palette opens index, .ofNat (min value 255), fun style => ?_⟩
    have selected : Rendition [first, ['5'], index] style
        (style.paint .foreground (.indexed (.ofNat (min value 255)))) :=
      .indexed number chosen style
    exact Style.apply_of_rendition (.indexed opens index) selected

/-- Whether a zero stands before the other digits of a token's first code. -/
def Token.HasLeadingZero (token : Token) : Prop :=
  ∃ digits later, token.codes = ('0' :: digits) :: later

/-- A token is written like a palette color for the foreground exactly if selecting one is
what its codes do and no zero stands before them. -/
theorem Token.selectsIndexed_iff_selectsForeground {token : Token}
    (admitted : token.sequence.isAdmitted true = true) :
    token.selectsIndexed = true ↔ SelectsForeground token.codes ∧ ¬token.HasLeadingZero := by
  rw [selectsIndexed_iff, selectsForeground_iff]
  constructor
  · rintro ⟨index, written, codes⟩
    have digits : index.all Char.isDigit = true := by
      apply List.all_eq_true.mpr
      exact isDigit_of_mem_codes admitted (by rw [codes]; simp)
    refine ⟨⟨_, index, codes, by decide, ?_⟩, ?_⟩
    · rw [Code.number?, if_pos ⟨written, digits⟩]
      rfl
    · rintro ⟨others, later, zero⟩
      rw [codes] at zero
      cases zero
  · rintro ⟨⟨first, index, codes, number, written⟩, bare⟩
    have notZero : first.head? ≠ some '0' := by
      intro zero
      obtain ⟨digits, rfl⟩ := List.head?_eq_some_iff.mp zero
      exact bare ⟨digits, _, codes⟩
    refine ⟨index, ?_, ?_⟩
    · rintro rfl
      cases written
    · rw [codes, Code.eq_digits_of_number? number notZero]
      norm_num

end LogTint
