import LogTint.Sgr.Group
import LogTint.Sgr.Style
import Mathlib.Data.List.Induction
import Mathlib.Data.Nat.Digits.Defs

/-!
# The table of codes

`Rendition` says what each group of codes does to a style, in terms of the
numbers that codes denote, however long they are.  A style that takes codes in
order walks over them group by group and does to each what the table says; that
values stop growing at some limit never shows.
-/

namespace LogTint

namespace Code

/-- The number that a code denotes.  Only a nonempty run of ASCII digits denotes
one. -/
def number? (code : Code) : Option Nat :=
  if code ≠ [] ∧ code.all Char.isDigit = true then
    some (Nat.ofDigits 10 (code.reverse.map fun digit => digit.toNat - '0'.toNat))
  else none

theorem decimal_eq_ofDigits (digits : List Char) :
    decimal digits =
      Nat.ofDigits 10 (digits.reverse.map fun digit => digit.toNat - '0'.toNat) := by
  induction digits using List.reverseRecOn with
  | nil => rfl
  | append_singleton digits digit induction =>
      rw [List.reverse_append, List.reverse_singleton, List.singleton_append,
        List.map_cons, Nat.ofDigits_cons, ← induction, decimal, List.foldl_append,
        List.foldl_cons, List.foldl_nil, ← decimal]
      exact Nat.add_comm _ _

/-- The value of a code is the number that it denotes, up to the limit. -/
theorem value?_eq_map_number? (code : Code) :
    code.value? = code.number?.map (min · valueLimit) := by
  unfold value? number?
  rw [← decimal_eq_ofDigits]
  by_cases digits : code ≠ [] ∧ code.all Char.isDigit = true
  · rw [if_pos digits, if_pos (by simpa using digits), Option.map_some]
  · rw [if_neg digits, if_neg (by simpa using digits), Option.map_none]

end Code

/-- The number of the code that selects a color of the layer. -/
def Layer.number : Layer → Nat
  | .foreground => 38
  | .background => 48

/-- What a group of codes does to a style. -/
inductive Rendition : List Code → Style → Style → Prop where
  | empty (style : Style) : Rendition [[]] style Style.plain
  | reset {code : Code} (number : code.number? = some 0) (style : Style) :
      Rendition [code] style Style.plain
  | bold {code : Code} (number : code.number? = some 1) (style : Style) :
      Rendition [code] style { style with bold := true }
  | italic {code : Code} (number : code.number? = some 3) (style : Style) :
      Rendition [code] style { style with italic := true }
  | underline {code : Code} (number : code.number? = some 4) (style : Style) :
      Rendition [code] style { style with underline := true }
  | foreground {code : Code} {value : Nat} (number : code.number? = some value)
      (range : 30 ≤ value ∧ value ≤ 37) (style : Style) :
      Rendition [code] style
        { style with foreground := some (.named (.ofNat (value - 30))) }
  | brightForeground {code : Code} {value : Nat} (number : code.number? = some value)
      (range : 90 ≤ value ∧ value ≤ 97) (style : Style) :
      Rendition [code] style
        { style with foreground := some (.named (.ofNat (value - 82))) }
  | background {code : Code} {value : Nat} (number : code.number? = some value)
      (range : 40 ≤ value ∧ value ≤ 47) (style : Style) :
      Rendition [code] style
        { style with background := some (.named (.ofNat (value - 40))) }
  | brightBackground {code : Code} {value : Nat} (number : code.number? = some value)
      (range : 100 ≤ value ∧ value ≤ 107) (style : Style) :
      Rendition [code] style
        { style with background := some (.named (.ofNat (value - 92))) }
  /-- An entry of the palette is selected for a layer. -/
  | indexed {layer : Layer} {first index : Code} {value : Nat}
      (number : first.number? = some layer.number) (chosen : index.number? = some value)
      (style : Style) :
      Rendition [first, ['5'], index] style
        (style.paint layer (.indexed (.ofNat (min value 255))))
  /-- Three channels are selected for a layer. -/
  | channels {layer : Layer} {first red green blue : Code}
      {redValue greenValue blueValue : Nat}
      (number : first.number? = some layer.number)
      (chosenRed : red.number? = some redValue)
      (chosenGreen : green.number? = some greenValue)
      (chosenBlue : blue.number? = some blueValue) (style : Style) :
      Rendition [first, ['2'], red, green, blue] style
        (style.paint layer (.rgb (.ofNat (min redValue 255))
          (.ofNat (min greenValue 255)) (.ofNat (min blueValue 255))))
  /-- A parameter is not a run of digits. -/
  | malformed {group : List Code} (written : group ≠ [[]])
      (refused : ∃ code ∈ group, code.number? = none) (style : Style) :
      Rendition group style style
  /-- Every other code on its own does nothing. -/
  | other {code : Code} {value : Nat} (number : code.number? = some value)
      (attributes : value ∉ [0, 1, 3, 4])
      (foregrounds : ¬(30 ≤ value ∧ value ≤ 37) ∧ ¬(90 ≤ value ∧ value ≤ 97))
      (backgrounds : ¬(40 ≤ value ∧ value ≤ 47) ∧ ¬(100 ≤ value ∧ value ≤ 107))
      (style : Style) :
      Rendition [code] style style

/-! ## Groups -/

/-- The shapes of a run of codes that is interpreted as a unit. -/
inductive CodeGroup : List Code → Prop where
  | single (code : Code) : CodeGroup [code]
  | indexed {layer : Layer} {first : Code} (opens : Layer.ofCode? first = some layer)
      (index : Code) : CodeGroup [first, ['5'], index]
  | channels {layer : Layer} {first : Code} (opens : Layer.ofCode? first = some layer)
      (red green blue : Code) : CodeGroup [first, ['2'], red, green, blue]

theorem CodeGroup.ne_nil {group : List Code} (grouped : CodeGroup group) :
    group ≠ [] := by
  cases grouped <;> exact List.cons_ne_nil _ _

/-- A code selects a layer exactly if its value is one of two. -/
theorem Layer.ofCode?_isSome_iff (code : Code) :
    (Layer.ofCode? code).isSome = true ↔
      code.value? = some 38 ∨ code.value? = some 48 := by
  unfold ofCode?
  split <;> simp_all

section Groups

variable {code : Code} {rest : List Code}

theorem groupLength_of_closed (closed : Layer.ofCode? code = none) :
    groupLength code rest = 1 := by
  have plain : ¬(code.value? = some 38 ∨ code.value? = some 48) := by
    rw [← Layer.ofCode?_isSome_iff, closed]
    exact Bool.false_ne_true
  simp [groupLength, plain]

theorem codeGroups_single (alone : groupLength code rest = 1) :
    codeGroups (code :: rest) = [code] :: codeGroups rest := by
  rw [codeGroups, alone]
  rfl

theorem codeGroups_indexed {layer : Layer} (opens : Layer.ofCode? code = some layer)
    (index : Code) (after : List Code) :
    codeGroups (code :: ['5'] :: index :: after) =
      [code, ['5'], index] :: codeGroups after := by
  have extended := (Layer.ofCode?_isSome_iff code).mp (by rw [opens]; rfl)
  have length : groupLength code (['5'] :: index :: after) = 3 := by
    simp [groupLength, extended]
  rw [codeGroups, length]
  rfl

theorem codeGroups_channels {layer : Layer} (opens : Layer.ofCode? code = some layer)
    (red green blue : Code) (after : List Code) :
    codeGroups (code :: ['2'] :: red :: green :: blue :: after) =
      [code, ['2'], red, green, blue] :: codeGroups after := by
  have extended := (Layer.ofCode?_isSome_iff code).mp (by rw [opens]; rfl)
  have length : groupLength code (['2'] :: red :: green :: blue :: after) = 5 := by
    simp [groupLength, extended]
  rw [codeGroups, length]
  rfl

/-- A code that could select a color is alone when no selector with enough
parameters follows. -/
theorem groupLength_of_truncated
    (noIndex : ∀ index after, rest = ['5'] :: index :: after → False)
    (noChannels : ∀ red green blue after,
      rest = ['2'] :: red :: green :: blue :: after → False) :
    groupLength code rest = 1 := by
  have notIndexed : ¬(rest.head? = some ['5'] ∧ 2 ≤ rest.length) := by
    rintro ⟨selector, enough⟩
    match rest, selector, enough with
    | _ :: index :: after, rfl, _ => exact noIndex index after rfl
  have notChannels : ¬(rest.head? = some ['2'] ∧ 4 ≤ rest.length) := by
    rintro ⟨selector, enough⟩
    match rest, selector, enough with
    | _ :: red :: green :: blue :: after, rfl, _ =>
        exact noChannels red green blue after rfl
  rw [groupLength, if_neg (notIndexed ∘ And.right), if_neg (notChannels ∘ And.right)]

end Groups

namespace Style

variable {code : Code} {layer : Layer} {rest : List Code}

theorem apply_closed (style : Style) (closed : Layer.ofCode? code = none)
    (rest : List Code) : style.apply (code :: rest) = (style.applyCode code).apply rest := by
  rw [apply, closed]

theorem apply_indexed (style : Style) (opens : Layer.ofCode? code = some layer)
    (index : Code) (after : List Code) :
    style.apply (code :: ['5'] :: index :: after) =
      (style.paint? layer (indexedColor? index)).apply after := by
  rw [apply, opens]
  rfl

theorem apply_channels (style : Style) (opens : Layer.ofCode? code = some layer)
    (red green blue : Code) (after : List Code) :
    style.apply (code :: ['2'] :: red :: green :: blue :: after) =
      (style.paint? layer (channelColor? red green blue)).apply after := by
  rw [apply, opens]
  rfl

theorem apply_truncated (style : Style) (opens : Layer.ofCode? code = some layer)
    (noIndex : ∀ index after, rest = ['5'] :: index :: after → False)
    (noChannels : ∀ red green blue after,
      rest = ['2'] :: red :: green :: blue :: after → False) :
    style.apply (code :: rest) = style.apply rest := by
  rw [apply, opens]
  dsimp only
  split
  · exact (noIndex _ _ rfl).elim
  · exact (noChannels _ _ _ _ rfl).elim
  · rfl

/-- A style takes codes group by group. -/
theorem apply_eq_foldl (style : Style) (codes : List Code) :
    style.apply codes = (codeGroups codes).foldl apply style := by
  induction style, codes using apply.induct with
  | case1 style => simp [codeGroups, apply]
  | case2 style code rest closed induction =>
      rw [codeGroups_single (groupLength_of_closed closed), List.foldl_cons,
        apply_closed style closed, apply_closed style closed, induction]
      rfl
  | case3 style code layer opens index after induction =>
      rw [codeGroups_indexed opens, List.foldl_cons, apply_indexed style opens,
        apply_indexed style opens, induction]
      rfl
  | case4 style code layer opens red green blue after induction =>
      rw [codeGroups_channels opens, List.foldl_cons, apply_channels style opens,
        apply_channels style opens, induction]
      rfl
  | case5 style code layer opens rest noIndex noChannels induction =>
      rw [codeGroups_single (groupLength_of_truncated noIndex noChannels),
        List.foldl_cons, apply_truncated style opens noIndex noChannels,
        apply_truncated style opens (by simp) (by simp), induction]
      rfl

end Style

/-- The groups of codes, one after the other, are the codes. -/
theorem codeGroups_spec (codes : List Code) :
    (∀ group ∈ codeGroups codes, CodeGroup group) ∧
      (codeGroups codes).flatten = codes := by
  induction Style.plain, codes using Style.apply.induct with
  | case1 => simp [codeGroups]
  | case2 _ code rest closed induction =>
      rw [codeGroups_single (groupLength_of_closed closed), List.flatten_cons,
        induction.2]
      exact ⟨List.forall_mem_cons.mpr ⟨.single code, induction.1⟩, rfl⟩
  | case3 _ code layer opens index after induction =>
      rw [codeGroups_indexed opens, List.flatten_cons, induction.2]
      exact ⟨List.forall_mem_cons.mpr ⟨.indexed opens index, induction.1⟩, rfl⟩
  | case4 _ code layer opens red green blue after induction =>
      rw [codeGroups_channels opens, List.flatten_cons, induction.2]
      exact ⟨List.forall_mem_cons.mpr ⟨.channels opens red green blue, induction.1⟩, rfl⟩
  | case5 _ code layer opens rest noIndex noChannels induction =>
      rw [codeGroups_single (groupLength_of_truncated noIndex noChannels),
        List.flatten_cons, induction.2]
      exact ⟨List.forall_mem_cons.mpr ⟨.single code, induction.1⟩, rfl⟩

/-! ## The table -/

namespace Code

variable {code : Code} {value : Nat}

/-- Numbers below the limit are values as they are. -/
theorem value?_of_number? (number : code.number? = some value) :
    code.value? = some (min value valueLimit) := by
  rw [value?_eq_map_number?, number, Option.map_some]

theorem number?_of_value? (below : value < valueLimit)
    (known : code.value? = some value) : code.number? = some value := by
  rw [value?_eq_map_number?] at known
  obtain ⟨number, same, limited⟩ := Option.map_eq_some_iff.mp known
  rw [same]
  congr 1
  omega

end Code

theorem Layer.ofCode?_eq_some_iff {code : Code} {layer : Layer} :
    Layer.ofCode? code = some layer ↔ code.number? = some layer.number := by
  constructor
  · intro opens
    unfold Layer.ofCode? at opens
    split at opens
    case h_1 known =>
      cases opens
      exact Code.number?_of_value? (by decide) known
    case h_2 known =>
      cases opens
      exact Code.number?_of_value? (by decide) known
    case h_3 => cases opens
  · intro number
    unfold Layer.ofCode?
    rw [Code.value?_of_number? number]
    cases layer <;> rfl

theorem Color.ofName_clampByte {index : Nat} (small : index < 16) :
    Color.ofName (clampByte index) = .named (.ofNat index) := by
  revert index
  decide

theorem clampByte_min_valueLimit (value : Nat) :
    clampByte (min value Code.valueLimit) = .ofNat (min value 255) := by
  unfold clampByte Code.valueLimit
  congr 1
  omega

namespace Style

variable {group : List Code} {before after : Style}

/-- A code that could select a color does nothing on its own. -/
theorem apply_single (style : Style) (code : Code) :
    style.apply [code] = style.applyCode code := by
  cases opens : Layer.ofCode? code with
  | none => exact apply_closed style opens []
  | some layer =>
      rw [apply_truncated style opens (by simp) (by simp), apply]
      rcases (Layer.ofCode?_isSome_iff code).mp (by rw [opens]; rfl) with known | known <;>
      · have written : code ≠ [] := by
          rintro rfl
          cases known
        simp [applyCode, known, written]

/-- What a code with a value does is decided by the value. -/
theorem apply_single_of_value? {code : Code} {value : Nat} (style : Style)
    (known : code.value? = some value) :
    style.apply [code] =
      if value = 0 then plain
      else if value = 1 then { style with bold := true }
      else if value = 3 then { style with italic := true }
      else if value = 4 then { style with underline := true }
      else if 30 ≤ value ∧ value ≤ 37 then
        { style with foreground := some (.named (.ofNat (value - 30))) }
      else if 90 ≤ value ∧ value ≤ 97 then
        { style with foreground := some (.named (.ofNat (value - 82))) }
      else if 40 ≤ value ∧ value ≤ 47 then
        { style with background := some (.named (.ofNat (value - 40))) }
      else if 100 ≤ value ∧ value ≤ 107 then
        { style with background := some (.named (.ofNat (value - 92))) }
      else style := by
  have written : code ≠ [] := by
    rintro rfl
    cases known
  have named (base : Nat) (range : base ≤ value ∧ value ≤ base + 15) :
      Color.ofName (clampByte (value - base)) = .named (.ofNat (value - base)) :=
    Color.ofName_clampByte (by omega)
  rw [apply_single, applyCode, if_neg (by simpa using written), known]
  dsimp only
  split_ifs with _ _ _ _ low bright back brightBack <;> try rfl
  · rw [named 30 (by omega)]
    rfl
  · rw [show value - 90 + 8 = value - 82 by omega, named 82 (by omega)]
    rfl
  · rw [named 40 (by omega)]
    rfl
  · rw [show value - 100 + 8 = value - 92 by omega, named 92 (by omega)]
    rfl

theorem apply_indexed_group {first index : Code} {layer : Layer} (style : Style)
    (opens : Layer.ofCode? first = some layer) :
    style.apply [first, ['5'], index] =
      style.paint? layer
        (index.number?.map fun value => .indexed (.ofNat (min value 255))) := by
  rw [apply_indexed style opens, apply, indexedColor?, Code.value?_eq_map_number?,
    Option.map_map]
  simp only [Function.comp_def, Color.ofIndex, clampByte_min_valueLimit]

theorem apply_channels_group {first red green blue : Code} {layer : Layer}
    (style : Style) (opens : Layer.ofCode? first = some layer) :
    style.apply [first, ['2'], red, green, blue] =
      style.paint? layer (red.number?.bind fun red => green.number?.bind fun green =>
        blue.number?.map fun blue => .rgb (.ofNat (min red 255))
          (.ofNat (min green 255)) (.ofNat (min blue 255))) := by
  rw [apply_channels style opens, apply, channelColor?, Code.value?_eq_map_number?,
    Code.value?_eq_map_number?, Code.value?_eq_map_number?]
  cases red.number? <;> cases green.number? <;> cases blue.number? <;>
    simp [Color.ofChannels, clampByte_min_valueLimit]

/-- The table determines what a group does. -/
theorem apply_of_rendition (grouped : CodeGroup group)
    (selected : Rendition group before after) : before.apply group = after := by
  cases selected with
  | empty => rfl
  | reset number | bold number | italic number | underline number =>
      rw [apply_single_of_value? _ (Code.value?_of_number? number)]
      rfl
  | foreground number range | brightForeground number range | background number range
  | brightBackground number range =>
      have known := Code.value?_of_number? number
      rw [Nat.min_eq_left (by unfold Code.valueLimit; omega)] at known
      rw [apply_single_of_value? _ known]
      grind
  | other number attributes foregrounds backgrounds =>
      rw [apply_single_of_value? _ (Code.value?_of_number? number)]
      simp only [List.mem_cons, List.not_mem_nil, or_false, not_or] at attributes
      unfold Code.valueLimit
      split_ifs <;> first | rfl | omega
  | indexed number chosen =>
      rw [apply_indexed_group _ (Layer.ofCode?_eq_some_iff.mpr number), chosen]
      rfl
  | channels number chosenRed chosenGreen chosenBlue =>
      rw [apply_channels_group _ (Layer.ofCode?_eq_some_iff.mpr number), chosenRed,
        chosenGreen, chosenBlue]
      rfl
  | malformed written refused =>
      obtain ⟨code, member, refused⟩ := refused
      cases grouped with
      | single alone =>
          rw [List.mem_singleton.mp member] at refused
          have noValue : Code.value? alone = none := by
            rw [Code.value?_eq_map_number?, refused, Option.map_none]
          rw [apply_single, applyCode, if_neg (by simpa using written), noValue]
      | @indexed layer first opens index =>
          have absent : index.number? = none := by
            have number := Layer.ofCode?_eq_some_iff.mp opens
            simp only [List.mem_cons, List.not_mem_nil, or_false] at member
            rcases member with rfl | rfl | rfl
            · cases refused.symm.trans number
            · exact absurd refused (by decide)
            · exact refused
          rw [apply_indexed_group _ opens, absent]
          rfl
      | @channels layer first opens red green blue =>
          rw [apply_channels_group _ opens]
          have number := Layer.ofCode?_eq_some_iff.mp opens
          simp only [List.mem_cons, List.not_mem_nil, or_false] at member
          rcases member with rfl | rfl | rfl | rfl | rfl
          · cases refused.symm.trans number
          · exact absurd refused (by decide)
          · simp [refused, paint?]
          · simp [refused, paint?]
          · simp [refused, paint?]

theorem exists_rendition_single (code : Code) (style : Style) :
    ∃ after, Rendition [code] style after := by
  by_cases written : code = []
  · subst written
    exact ⟨_, .empty style⟩
  cases number : code.number? with
  | none => exact ⟨_, .malformed (by simpa using written) ⟨code, by simp, number⟩ style⟩
  | some value =>
      by_cases attributes : value ∈ [0, 1, 3, 4]
      · simp only [List.mem_cons, List.not_mem_nil, or_false] at attributes
        rcases attributes with rfl | rfl | rfl | rfl
        · exact ⟨_, .reset number style⟩
        · exact ⟨_, .bold number style⟩
        · exact ⟨_, .italic number style⟩
        · exact ⟨_, .underline number style⟩
      by_cases foreground : 30 ≤ value ∧ value ≤ 37
      · exact ⟨_, .foreground number foreground style⟩
      by_cases brightForeground : 90 ≤ value ∧ value ≤ 97
      · exact ⟨_, .brightForeground number brightForeground style⟩
      by_cases background : 40 ≤ value ∧ value ≤ 47
      · exact ⟨_, .background number background style⟩
      by_cases brightBackground : 100 ≤ value ∧ value ≤ 107
      · exact ⟨_, .brightBackground number brightBackground style⟩
      exact ⟨_, .other number attributes ⟨foreground, brightForeground⟩
        ⟨background, brightBackground⟩ style⟩

/-- Every group is in the table. -/
theorem exists_rendition (grouped : CodeGroup group) (style : Style) :
    ∃ after, Rendition group style after := by
  cases grouped with
  | single code => exact exists_rendition_single code style
  | @indexed layer first opens index =>
      have number := Layer.ofCode?_eq_some_iff.mp opens
      cases chosen : index.number? with
      | none => exact ⟨_, .malformed (by simp) ⟨index, by simp, chosen⟩ style⟩
      | some value => exact ⟨_, .indexed number chosen style⟩
  | @channels layer first opens red green blue =>
      have number := Layer.ofCode?_eq_some_iff.mp opens
      cases chosenRed : red.number? with
      | none => exact ⟨_, .malformed (by simp) ⟨red, by simp, chosenRed⟩ style⟩
      | some redValue =>
          cases chosenGreen : green.number? with
          | none => exact ⟨_, .malformed (by simp) ⟨green, by simp, chosenGreen⟩ style⟩
          | some greenValue =>
              cases chosenBlue : blue.number? with
              | none => exact ⟨_, .malformed (by simp) ⟨blue, by simp, chosenBlue⟩ style⟩
              | some blueValue =>
                  exact ⟨_, .channels number chosenRed chosenGreen chosenBlue style⟩

/-- Codes come in groups, a style takes them group by group, and it does to each
what the table says. -/
theorem apply_follows_table (codes : List Code) (style : Style) :
    (∀ group ∈ codeGroups codes, group ≠ []) ∧ (codeGroups codes).flatten = codes ∧
      style.apply codes = (codeGroups codes).foldl apply style ∧
      ∀ group ∈ codeGroups codes, ∀ before after : Style,
        Rendition group before after ↔ after = before.apply group := by
  obtain ⟨grouped, joined⟩ := codeGroups_spec codes
  refine ⟨fun group member => (grouped group member).ne_nil, joined,
    style.apply_eq_foldl codes, fun group member before after => ⟨?_, ?_⟩⟩
  · intro selected
    exact (apply_of_rendition (grouped group member) selected).symm
  · rintro rfl
    obtain ⟨after, selected⟩ := exists_rendition (grouped group member) before
    rwa [apply_of_rendition (grouped group member) selected]

end Style

end LogTint
