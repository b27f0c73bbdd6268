import LogTint.Proofs.PaletteSelection
import Mathlib.Data.List.Destutter

/-!
# Categories and what groups do

The category of a group is read off its length and the value of its first code; a style
takes the group by selectors and parameters.  Still a category says what the group does to
every style: two groups that do the same have the same category, except that a color with a
parameter that is no number keeps its category and does nothing.  A token lists the
categories of its groups in order, each once.
-/

namespace LogTint

namespace Style

def color (style : Style) : Layer → Option Color
  | .foreground => style.foreground
  | .background => style.background

/-- What a group of codes can do to every style alike. -/
inductive Doing where
  | reset
  | nothing
  | bold
  | italic
  | underline
  | paint (layer : Layer) (color : Color)

namespace Doing

def on : Doing → Style → Style
  | reset, _ => plain
  | nothing, style => style
  | bold, style => { style with bold := true }
  | italic, style => { style with italic := true }
  | underline, style => { style with underline := true }
  | paint layer color, style => style.paint layer color

/-- Reads off what was done from what became of the plain style and of a bold one. -/
def read (fromPlain fromBold : Style) : Doing :=
  match fromPlain.foreground, fromPlain.background with
  | some color, _ => paint .foreground color
  | none, some color => paint .background color
  | none, none =>
      if fromPlain.bold then bold
      else if fromPlain.italic then italic
      else if fromPlain.underline then underline
      else if fromBold.bold then nothing
      else reset

theorem read_on (doing : Doing) :
    read (doing.on plain) (doing.on { plain with bold := true }) = doing := by
  cases doing with
  | paint layer color => cases layer <;> rfl
  | _ => rfl

theorem on_injective : Function.Injective on := by
  intro left right same
  rw [← read_on left, same, read_on]

/-- The category, if any, of the groups that do something. -/
inductive Gives : Doing → Option Category → Prop where
  | reset : Gives reset (some .reset)
  | nothing : Gives nothing none
  | bold : Gives bold (some .bold)
  | italic : Gives italic none
  | underline : Gives underline none
  | basicColor {index : UInt8} (base : index < 8) :
      Gives (paint .foreground (.named index)) (some .basicColor)
  | brightColor {index : UInt8} (bright : 8 ≤ index) (small : index < 16) :
      Gives (paint .foreground (.named index)) (some .brightColor)
  | background (index : UInt8) :
      Gives (paint .background (.named index)) (some .background)
  | indexed (layer : Layer) (index : UInt8) :
      Gives (paint layer (.indexed index)) (some .indexedColor)
  | rgb (layer : Layer) (red green blue : UInt8) :
      Gives (paint layer (.rgb red green blue)) (some .truecolor)

theorem eq_paint {doing : Doing} {layer : Layer} {color : Color}
    (colored : (doing.on plain).color layer = some color) : doing = paint layer color := by
  cases doing with
  | paint other chosen =>
      cases layer <;> cases other <;> cases colored <;> rfl
  | _ => cases layer <;> cases colored

namespace Gives

variable {doing : Doing} {category : Option Category}

theorem reset_iff (gives : Gives doing category) :
    category = some .reset ↔ doing = .reset := by
  cases gives <;> simp

theorem bold_iff (gives : Gives doing category) :
    category = some .bold ↔ doing = .bold := by
  cases gives <;> simp

theorem basicColor_iff (gives : Gives doing category) :
    category = some .basicColor ↔
      ∃ index, index < 8 ∧ doing = .paint .foreground (.named index) := by
  cases gives with
  | basicColor base => simp [base]
  | brightColor bright small => simp [bright]
  | _ => simp

theorem brightColor_iff (gives : Gives doing category) :
    category = some .brightColor ↔
      ∃ index, 8 ≤ index ∧ index < 16 ∧ doing = .paint .foreground (.named index) := by
  cases gives with
  | basicColor base => simp [base]
  | brightColor bright small => simp [bright, small]
  | _ => simp

theorem background_iff (gives : Gives doing category) :
    category = some .background ↔ ∃ index, doing = .paint .background (.named index) := by
  cases gives <;> simp

theorem indexed_iff (gives : Gives doing category) :
    category = some .indexedColor ↔ ∃ layer index, doing = .paint layer (.indexed index) := by
  cases gives <;> simp

theorem rgb_iff (gives : Gives doing category) :
    category = some .truecolor ↔
      ∃ layer red green blue, doing = .paint layer (.rgb red green blue) := by
  cases gives <;> simp

theorem none_iff (gives : Gives doing category) :
    category = none ↔ doing = .italic ∨ doing = .underline ∨ doing = .nothing := by
  cases gives <;> simp

end Gives

end Doing

end Style

/-! ## What a group does and its category -/

/-- Whether a parameter of a selected color is not a run of digits. -/
def Malformed (group : List Code) : Prop :=
  ∃ parameter ∈ group.drop 2, parameter.number? = none

instance (group : List Code) : Decidable (Malformed group) :=
  inferInstanceAs (Decidable (∃ parameter ∈ group.drop 2, parameter.number? = none))

section Groups

variable {group : List Code}

theorem CodeGroup.apply_of_malformed (grouped : CodeGroup group) (malformed : Malformed group)
    (style : Style) : style.apply group = style := by
  obtain ⟨parameter, member, refused⟩ := malformed
  have written : group ≠ [[]] := by
    rintro rfl
    cases member
  exact Style.apply_of_rendition grouped
    (.malformed written ⟨parameter, List.mem_of_mem_drop member, refused⟩ style)

theorem Category.ofGroup?_of_number? {code : Code} {value : Nat}
    (number : code.number? = some value) :
    ofGroup? [code] = ofValue? (min value Code.valueLimit) := by
  have nonempty : code ≠ [] := by
    rintro rfl
    cases number
  simp [ofGroup?, nonempty, Code.value?_of_number? number]

theorem Category.ofGroup?_channels {first red green blue : Code} {layer : Layer}
    (opens : Layer.ofCode? first = some layer) :
    ofGroup? [first, ['2'], red, green, blue] = some .truecolor := by
  have selects := (Layer.ofCode?_isSome_iff first).mp (by rw [opens]; rfl)
  have nonempty : first ≠ [] := by
    rintro rfl
    rcases selects with none | none <;> cases none
  rcases selects with known | known <;> simp [ofGroup?, known, nonempty]

theorem CodeGroup.category_of_malformed (grouped : CodeGroup group)
    (malformed : Malformed group) :
    Category.ofGroup? group = some .indexedColor ∨ Category.ofGroup? group = some .truecolor := by
  cases grouped with
  | single code =>
      obtain ⟨parameter, member, _⟩ := malformed
      cases member
  | indexed opens index => exact .inl (Category.ofGroup?_palette opens)
  | channels opens red green blue => exact .inr (Category.ofGroup?_channels opens)

namespace Category

variable {value : Nat}

theorem ofValue?_basic (range : 30 ≤ value ∧ value ≤ 37) :
    ofValue? (min value Code.valueLimit) = some .basicColor := by
  unfold ofValue? Code.valueLimit
  split_ifs <;> first | rfl | omega

theorem ofValue?_bright (range : 90 ≤ value ∧ value ≤ 97) :
    ofValue? (min value Code.valueLimit) = some .brightColor := by
  unfold ofValue? Code.valueLimit
  split_ifs <;> first | rfl | omega

theorem ofValue?_background (range : (40 ≤ value ∧ value ≤ 47) ∨ (100 ≤ value ∧ value ≤ 107)) :
    ofValue? (min value Code.valueLimit) = some .background := by
  unfold ofValue? Code.valueLimit
  split_ifs <;> first | rfl | omega

theorem ofValue?_other (attributes : value ∉ [0, 1, 3, 4])
    (foregrounds : ¬(30 ≤ value ∧ value ≤ 37) ∧ ¬(90 ≤ value ∧ value ≤ 97))
    (backgrounds : ¬(40 ≤ value ∧ value ≤ 47) ∧ ¬(100 ≤ value ∧ value ≤ 107)) :
    ofValue? (min value Code.valueLimit) = none := by
  simp only [List.mem_cons, List.not_mem_nil, or_false, not_or] at attributes
  unfold ofValue? Code.valueLimit
  split_ifs <;> first | rfl | omega

end Category

/-- A code that is no number has no category. -/
theorem CodeGroup.category_of_refused (grouped : CodeGroup group)
    (wellFormed : ¬Malformed group) (written : group ≠ [[]])
    (refused : ∃ code ∈ group, code.number? = none) : Category.ofGroup? group = none := by
  obtain ⟨code, member, refused⟩ := refused
  cases grouped with
  | single alone =>
      rw [List.mem_singleton.mp member] at refused
      have nonempty : alone ≠ [] := by simpa using written
      simp [Category.ofGroup?, nonempty, Code.value?_eq_map_number?, refused]
  | @indexed layer first opens index =>
      have number := Layer.ofCode?_eq_some_iff.mp opens
      simp only [List.mem_cons, List.not_mem_nil, or_false] at member
      rcases member with rfl | rfl | rfl
      · cases refused.symm.trans number
      · exact absurd refused (by decide)
      · exact absurd ⟨_, by simp, refused⟩ wellFormed
  | @channels layer first opens red green blue =>
      have number := Layer.ofCode?_eq_some_iff.mp opens
      simp only [List.mem_cons, List.not_mem_nil, or_false] at member
      rcases member with rfl | rfl | parameter
      · cases refused.symm.trans number
      · exact absurd refused (by decide)
      · exact absurd ⟨code, by simpa using parameter, refused⟩ wellFormed

theorem ofNat_lt_eight_iff {index : Nat} (small : index < 16) :
    UInt8.ofNat index < 8 ↔ index < 8 := by
  revert index
  decide

theorem ofNat_lt_sixteen {index : Nat} (small : index < 16) : UInt8.ofNat index < 16 := by
  revert index
  decide

/-- Every group that is not malformed does something that gives it its category. -/
theorem CodeGroup.exists_gives (grouped : CodeGroup group) (wellFormed : ¬Malformed group) :
    ∃ doing : Style.Doing, (∀ style : Style, style.apply group = doing.on style) ∧
      doing.Gives (Category.ofGroup? group) := by
  obtain ⟨after, selected⟩ := Style.exists_rendition grouped Style.plain
  have does {doing : Style.Doing} (table : ∀ style, Rendition group style (doing.on style))
      (style : Style) : style.apply group = doing.on style :=
    Style.apply_of_rendition grouped (table style)
  cases selected with
  | empty => exact ⟨.reset, does .empty, .reset⟩
  | reset number =>
      rw [Category.ofGroup?_of_number? number]
      exact ⟨.reset, does (.reset number), .reset⟩
  | bold number =>
      rw [Category.ofGroup?_of_number? number]
      exact ⟨.bold, does (.bold number), .bold⟩
  | italic number =>
      rw [Category.ofGroup?_of_number? number]
      exact ⟨.italic, does (.italic number), .italic⟩
  | underline number =>
      rw [Category.ofGroup?_of_number? number]
      exact ⟨.underline, does (.underline number), .underline⟩
  | foreground number range =>
      rw [Category.ofGroup?_of_number? number, Category.ofValue?_basic range]
      refine ⟨.paint .foreground _, does (.foreground number range), .basicColor ?_⟩
      exact (ofNat_lt_eight_iff (by omega)).mpr (by omega)
  | brightForeground number range =>
      rw [Category.ofGroup?_of_number? number, Category.ofValue?_bright range]
      refine ⟨.paint .foreground _, does (.brightForeground number range), .brightColor ?_ ?_⟩
      · rw [← UInt8.not_lt, ofNat_lt_eight_iff (by omega)]
        omega
      · exact ofNat_lt_sixteen (by omega)
  | background number range =>
      rw [Category.ofGroup?_of_number? number, Category.ofValue?_background (.inl range)]
      exact ⟨.paint .background _, does (.background number range), .background _⟩
  | brightBackground number range =>
      rw [Category.ofGroup?_of_number? number, Category.ofValue?_background (.inr range)]
      exact ⟨.paint .background _, does (.brightBackground number range), .background _⟩
  | @indexed layer first index value number chosen =>
      rw [Category.ofGroup?_palette (Layer.ofCode?_eq_some_iff.mpr number)]
      exact ⟨.paint layer _, does (.indexed number chosen), .indexed layer _⟩
  | @channels layer first red green blue _ _ _ number chosenRed chosenGreen chosenBlue =>
      rw [Category.ofGroup?_channels (Layer.ofCode?_eq_some_iff.mpr number)]
      exact ⟨.paint layer _, does (.channels number chosenRed chosenGreen chosenBlue),
        .rgb layer _ _ _⟩
  | malformed written refused =>
      rw [grouped.category_of_refused wellFormed written refused]
      exact ⟨.nothing, does (.malformed written refused), .nothing⟩
  | other number attributes foregrounds backgrounds =>
      rw [Category.ofGroup?_of_number? number,
        Category.ofValue?_other attributes foregrounds backgrounds]
      exact ⟨.nothing, does (.other number attributes foregrounds backgrounds), .nothing⟩

/-! ## What a category says -/

/-- What the category of a group says about the styles that take it. -/
structure Category.Describes (group : List Code) : Prop where
  reset : ofGroup? group = some .reset ↔ ∀ style : Style, style.apply group = Style.plain
  bold : ofGroup? group = some .bold ↔
    ∀ style : Style, style.apply group = { style with bold := true }
  basicColor : ofGroup? group = some .basicColor ↔
    ∃ index : UInt8, index < 8 ∧ ∀ style : Style,
      style.apply group = { style with foreground := some (.named index) }
  brightColor : ofGroup? group = some .brightColor ↔
    ∃ index : UInt8, 8 ≤ index ∧ index < 16 ∧ ∀ style : Style,
      style.apply group = { style with foreground := some (.named index) }
  background : ofGroup? group = some .background ↔
    ∃ index : UInt8, ∀ style : Style,
      style.apply group = { style with background := some (.named index) }
  indexed_of_sets (layer : Layer) (index : UInt8) :
    (∀ style : Style, (style.apply group).color layer = some (.indexed index)) →
      ofGroup? group = some .indexedColor
  sets_indexed : ofGroup? group = some .indexedColor →
    (¬Malformed group ∧ ∃ layer index, ∀ style : Style,
        style.apply group = style.paint layer (.indexed index)) ∨
      Malformed group ∧ ∀ style : Style, style.apply group = style
  rgb_of_sets (layer : Layer) (red green blue : UInt8) :
    (∀ style : Style, (style.apply group).color layer = some (.rgb red green blue)) →
      ofGroup? group = some .truecolor
  sets_rgb : ofGroup? group = some .truecolor →
    (¬Malformed group ∧ ∃ layer red green blue, ∀ style : Style,
        style.apply group = style.paint layer (.rgb red green blue)) ∨
      Malformed group ∧ ∀ style : Style, style.apply group = style
  none : ofGroup? group = none ↔
    (∀ style : Style, style.apply group = { style with italic := true }) ∨
      (∀ style : Style, style.apply group = { style with underline := true }) ∨
      (∀ style : Style, style.apply group = style) ∧ ¬Malformed group

/-- A malformed group has the category of the color that it names and does nothing. -/
theorem CodeGroup.describes_of_malformed (grouped : CodeGroup group)
    (malformed : Malformed group) : Category.Describes group := by
  have nothing : ∀ style : Style, style.apply group = style :=
    grouped.apply_of_malformed malformed
  have different (other : Style.Doing)
      (effect : ∀ style : Style, style.apply group = other.on style) : .nothing = other :=
    Style.Doing.on_injective (funext fun style => (nothing style).symm.trans (effect style))
  have colorless {layer : Layer} {color : Color}
      (colored : ∀ style : Style, (style.apply group).color layer = some color) : False := by
    have none := colored Style.plain
    rw [nothing] at none
    cases layer <;> cases none
  have category := grouped.category_of_malformed malformed
  have other {kind : Category} (notIndexed : kind ≠ .indexedColor) (notRgb : kind ≠ .truecolor) :
      Category.ofGroup? group ≠ some kind := by
    rcases category with known | known <;> rw [known, Ne, Option.some_inj]
    · exact notIndexed.symm
    · exact notRgb.symm
  constructor
  case reset =>
    refine iff_of_false (other nofun nofun) fun effect => ?_
    cases different .reset effect
  case bold =>
    refine iff_of_false (other nofun nofun) fun effect => ?_
    cases different .bold effect
  case basicColor =>
    refine iff_of_false (other nofun nofun) ?_
    rintro ⟨index, _, effect⟩
    cases different (.paint .foreground (.named index)) effect
  case brightColor =>
    refine iff_of_false (other nofun nofun) ?_
    rintro ⟨index, _, _, effect⟩
    cases different (.paint .foreground (.named index)) effect
  case background =>
    refine iff_of_false (other nofun nofun) ?_
    rintro ⟨index, effect⟩
    cases different (.paint .background (.named index)) effect
  case indexed_of_sets =>
    exact fun layer index colored => (colorless colored).elim
  case sets_indexed => exact fun _ => .inr ⟨malformed, nothing⟩
  case rgb_of_sets =>
    exact fun layer red green blue colored => (colorless colored).elim
  case sets_rgb => exact fun _ => .inr ⟨malformed, nothing⟩
  case none =>
    refine iff_of_false ?_ ?_
    · rcases category with known | known <;> rw [known] <;> exact nofun
    · rintro (effect | effect | ⟨_, wellFormed⟩)
      · cases different .italic effect
      · cases different .underline effect
      · exact wellFormed malformed

theorem CodeGroup.describes (grouped : CodeGroup group) : Category.Describes group := by
  by_cases malformed : Malformed group
  · exact grouped.describes_of_malformed malformed
  obtain ⟨doing, effect, gives⟩ := grouped.exists_gives malformed
  have does (other : Style.Doing) :
      doing = other ↔ ∀ style : Style, style.apply group = other.on style := by
    constructor
    · rintro rfl
      exact effect
    · intro same
      exact Style.Doing.on_injective (funext fun style => (effect style).symm.trans (same style))
  have sets {layer : Layer} {color : Color}
      (colored : ∀ style : Style, (style.apply group).color layer = some color) :
      doing = .paint layer color := by
    apply Style.Doing.eq_paint
    rw [← effect, colored]
  constructor
  case reset => exact gives.reset_iff.trans (does .reset)
  case bold => exact gives.bold_iff.trans (does .bold)
  case basicColor =>
    exact gives.basicColor_iff.trans
      (exists_congr fun index => and_congr_right' (does (.paint .foreground (.named index))))
  case brightColor =>
    exact gives.brightColor_iff.trans
      (exists_congr fun index => and_congr_right' <| and_congr_right'
        (does (.paint .foreground (.named index))))
  case background =>
    exact gives.background_iff.trans
      (exists_congr fun index => does (.paint .background (.named index)))
  case indexed_of_sets =>
    exact fun layer index colored => gives.indexed_iff.mpr ⟨layer, index, sets colored⟩
  case sets_indexed =>
    intro same
    obtain ⟨layer, index, rfl⟩ := gives.indexed_iff.mp same
    exact .inl ⟨malformed, layer, index, effect⟩
  case rgb_of_sets =>
    exact fun layer red green blue colored =>
      gives.rgb_iff.mpr ⟨layer, red, green, blue, sets colored⟩
  case sets_rgb =>
    intro same
    obtain ⟨layer, red, green, blue, rfl⟩ := gives.rgb_iff.mp same
    exact .inl ⟨malformed, layer, red, green, blue, effect⟩
  case none =>
    rw [gives.none_iff, does .italic, does .underline, does .nothing]
    exact or_congr_right (or_congr_right (and_iff_left malformed).symm)

end Groups

/-! ## The categories of a token -/

namespace Category

theorem mem_all (category : Category) : category ∈ all := by
  cases category <;> decide

theorem mem_ofCodes_iff {category : Category} {codes : List Code} :
    category ∈ ofCodes codes ↔ category ∈ (codeGroups codes).filterMap ofGroup? := by
  simp [ofCodes, category.mem_all]

/-- The categories that are listed for some codes are those that occur in them. -/
theorem contains_ofCodes (category : Category) (codes : List Code) :
    (ofCodes codes).contains category = category.occursIn codes := by
  rw [Bool.eq_iff_iff, List.contains_iff_mem, mem_ofCodes_iff, List.mem_filterMap, occursIn,
    List.any_eq_true]
  simp

theorem index_injective : Function.Injective index := by
  intro left right
  cases left <;> cases right <;> simp [index]

/-- Dropping repetitions from categories in order leaves each of them once. -/
theorem destutter'_of_ordered {first : Category} {later : List Category}
    (ordered : (first :: later).Pairwise fun left right => left.index ≤ right.index) :
    ((later.destutter' (· ≠ ·) first).Pairwise fun left right => left.index < right.index) ∧
      ∀ category, category ∈ later.destutter' (· ≠ ·) first ↔ category ∈ first :: later := by
  induction later generalizing first with
  | nil => simp
  | cons second later induction =>
      obtain ⟨before, orderedLater⟩ := List.pairwise_cons.mp ordered
      obtain ⟨increasing, members⟩ := induction orderedLater
      by_cases same : first = second
      · subst same
        rw [List.destutter'_cons_neg _ (by simp)]
        refine ⟨increasing, fun category => ?_⟩
        rw [members, List.mem_cons (l := first :: later), or_iff_right_of_imp]
        rintro rfl
        exact List.mem_cons_self
      · rw [List.destutter'_cons_pos _ same]
        refine ⟨List.pairwise_cons.mpr ⟨fun category member => ?_, increasing⟩, fun category => ?_⟩
        · have fromSecond : second.index ≤ category.index := by
            rcases List.mem_cons.mp ((members category).mp member) with rfl | inLater
            · exact Nat.le_refl _
            · exact (List.pairwise_cons.mp orderedLater).1 category inLater
          have below : first.index ≤ second.index := before second List.mem_cons_self
          have different : first.index ≠ second.index := index_injective.ne same
          omega
        · rw [List.mem_cons, members, List.mem_cons (l := second :: later)]

theorem destutter_of_ordered {categories : List Category}
    (ordered : categories.Pairwise fun left right => left.index ≤ right.index) :
    ((categories.destutter (· ≠ ·)).Pairwise fun left right => left.index < right.index) ∧
      ∀ category, category ∈ categories.destutter (· ≠ ·) ↔ category ∈ categories := by
  cases categories with
  | nil => simp
  | cons first later => exact destutter'_of_ordered ordered

theorem eq_of_increasing {left right : List Category}
    (leftIncreasing : left.Pairwise fun left right => left.index < right.index)
    (rightIncreasing : right.Pairwise fun left right => left.index < right.index)
    (members : ∀ category, category ∈ left ↔ category ∈ right) : left = right := by
  have distinct {categories : List Category}
      (increasing : categories.Pairwise fun left right => left.index < right.index) :
      categories.Nodup := by
    refine increasing.imp fun below same => ?_
    rw [same] at below
    exact Nat.lt_irrefl _ below
  have permuted : left.Perm right :=
    (List.perm_ext_iff_of_nodup (distinct leftIncreasing) (distinct rightIncreasing)).mpr members
  refine permuted.eq_of_pairwise (fun _ _ _ _ below above => ?_) leftIncreasing rightIncreasing
  exact absurd below (Nat.lt_asymm above)

theorem increasing_ofCodes (codes : List Code) :
    (ofCodes codes).Pairwise fun left right => left.index < right.index := by
  have all : all.Pairwise fun left right => left.index < right.index := by decide
  exact all.filter _

/-- The categories of the groups of some codes in order, without repetitions. -/
theorem ofCodes_eq_destutter (codes : List Code) :
    ofCodes codes = (((codeGroups codes).filterMap ofGroup?).mergeSort fun left right =>
      left.index ≤ right.index).destutter (· ≠ ·) := by
  have ordered := @List.pairwise_mergeSort Category
    (fun left right => decide (left.index ≤ right.index)) (by simp; omega) (by simp; omega)
    ((codeGroups codes).filterMap ofGroup?)
  obtain ⟨increasing, members⟩ := destutter_of_ordered (by simpa using ordered)
  refine eq_of_increasing (increasing_ofCodes codes) increasing fun category => ?_
  rw [members, List.mem_mergeSort, mem_ofCodes_iff]

/-- What a group does to every style is what its category says.  A token lists the
categories that it has in order, each once. -/
theorem describes_groups (codes : List Code) (token : Token) :
    (∀ group ∈ codeGroups codes, Describes group) ∧
      (token.categories.Pairwise fun left right => left.index < right.index) ∧
      (∀ category, category ∈ token.categories ↔ token.hasCategory category = true) ∧
      token.categories = (((codeGroups token.codes).filterMap ofGroup?).mergeSort
        fun left right => left.index ≤ right.index).destutter (· ≠ ·) := by
  refine ⟨fun group member => ((codeGroups_spec codes).1 group member).describes,
    increasing_ofCodes token.codes, fun category => ?_, ofCodes_eq_destutter token.codes⟩
  rw [Token.hasCategory, ← contains_ofCodes, List.contains_iff_mem]
  rfl

/-- A palette color without a number is listed and does nothing. -/
theorem describes_groups_of_missingIndex :
    ∃ token : Token, token.codes = [['3', '8'], ['5'], [], ['1']] ∧
      [['3', '8'], ['5'], []] ∈ codeGroups token.codes ∧
      (∀ style : Style, style.apply [['3', '8'], ['5'], []] = style) ∧
      Category.indexedColor ∈ token.categories := by
  let token : Token := ⟨0, ⟨.escape, "38;5;;1".toList⟩⟩
  have member : [['3', '8'], ['5'], []] ∈ codeGroups token.codes := by decide +kernel
  have malformed : Malformed [['3', '8'], ['5'], []] := by decide
  obtain ⟨describes, _, listed, _⟩ := describes_groups token.codes token
  refine ⟨token, by decide +kernel, member, ?_, (listed _).mpr (by decide +kernel)⟩
  obtain ⟨wellFormed, _⟩ | ⟨_, nothing⟩ := (describes _ member).sets_indexed (by decide +kernel)
  · exact absurd malformed wellFormed
  · exact nothing

end Category

end LogTint
