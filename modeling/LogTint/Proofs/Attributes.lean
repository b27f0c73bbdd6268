import LogTint.Proofs.Isolation
import LogTint.Proofs.Regrouping

/-!
# What codes do to each attribute

A group of codes does nothing, makes the style plain or sets one attribute.  So codes
leave an attribute as it is or give it a value that does not depend on the style: the
last group that touches the attribute decides.  Codes can be taken in two parts wherever
no group lies across the place between them.
-/

namespace LogTint

/-- The attributes of a style. -/
inductive Attribute where
  | foreground
  | background
  | bold
  | italic
  | underline
deriving DecidableEq

/-- The values that an attribute can have. -/
abbrev Attribute.Value : Attribute → Type
  | .foreground | .background => Option Color
  | .bold | .italic | .underline => Bool

namespace Style

def get (style : Style) : (kind : Attribute) → kind.Value
  | .foreground => style.foreground
  | .background => style.background
  | .bold => style.bold
  | .italic => style.italic
  | .underline => style.underline

def set (style : Style) : (kind : Attribute) → kind.Value → Style
  | .foreground, value => { style with foreground := value }
  | .background, value => { style with background := value }
  | .bold, value => { style with bold := value }
  | .italic, value => { style with italic := value }
  | .underline, value => { style with underline := value }

/-- A style is known from its attributes. -/
theorem ext_get {left right : Style}
    (same : ∀ kind, left.get kind = right.get kind) : left = right := by
  cases left
  cases right
  simp only [mk.injEq]
  exact ⟨same .foreground, same .background, same .bold, same .italic, same .underline⟩

theorem get_set_self (style : Style) (kind : Attribute) (value : kind.Value) :
    (style.set kind value).get kind = value := by
  cases kind <;> rfl

theorem get_set_of_ne (style : Style) {kind other : Attribute}
    (value : kind.Value) (different : other ≠ kind) :
    (style.set kind value).get other = style.get other := by
  cases kind <;> cases other <;> first | rfl | exact absurd rfl different

/-- Every attribute can be one thing or another. -/
theorem exists_get_ne (kind : Attribute) :
    ∃ left right : Style, left.get kind ≠ right.get kind := by
  refine ⟨plain, ⟨some (.named 0), some (.named 0), true, true, true⟩, ?_⟩
  cases kind <;> exact nofun

/-! ## Codes and one attribute -/

/-- Whether codes leave an attribute as it is. -/
def Keeps (codes : List Code) (kind : Attribute) : Prop :=
  ∀ style : Style, (style.apply codes).get kind = style.get kind

/-- Whether codes give an attribute a value that does not depend on the style. -/
def Determines (codes : List Code) (kind : Attribute) : Prop :=
  ∃ value, ∀ style : Style, (style.apply codes).get kind = value

/-- Codes that leave an attribute alone do not determine it. -/
theorem Keeps.not_determines {codes : List Code} {kind : Attribute}
    (keeps : Keeps codes kind) : ¬Determines codes kind := by
  rintro ⟨value, determined⟩
  obtain ⟨left, right, different⟩ := exists_get_ne kind
  apply different
  calc
    left.get kind = (left.apply codes).get kind := (keeps left).symm
    _ = (right.apply codes).get kind := by rw [determined, determined]
    _ = right.get kind := keeps right

end Style

/-- A group in the table does the same to every style: it makes it plain, it does nothing,
or it sets one attribute. -/
theorem Rendition.uniform {group : List Code} {before after : Style}
    (selected : Rendition group before after) :
    (∀ style, Rendition group style Style.plain) ∨ (∀ style, Rendition group style style) ∨
      ∃ kind value, ∀ style, Rendition group style (Style.set style kind value) := by
  cases selected with
  | empty => exact .inl .empty
  | reset number => exact .inl (.reset number)
  | bold number => exact .inr (.inr ⟨.bold, true, .bold number⟩)
  | italic number => exact .inr (.inr ⟨.italic, true, .italic number⟩)
  | underline number => exact .inr (.inr ⟨.underline, true, .underline number⟩)
  | foreground number range =>
      exact .inr (.inr ⟨.foreground, _, .foreground number range⟩)
  | brightForeground number range =>
      exact .inr (.inr ⟨.foreground, _, .brightForeground number range⟩)
  | background number range =>
      exact .inr (.inr ⟨.background, _, .background number range⟩)
  | brightBackground number range =>
      exact .inr (.inr ⟨.background, _, .brightBackground number range⟩)
  | @indexed layer first index value number chosen =>
      cases layer with
      | foreground => exact .inr (.inr ⟨.foreground, _, .indexed number chosen⟩)
      | background => exact .inr (.inr ⟨.background, _, .indexed number chosen⟩)
  | @channels layer first red green blue _ _ _ number chosenRed chosenGreen chosenBlue =>
      cases layer with
      | foreground =>
          exact .inr (.inr
            ⟨.foreground, _, .channels number chosenRed chosenGreen chosenBlue⟩)
      | background =>
          exact .inr (.inr
            ⟨.background, _, .channels number chosenRed chosenGreen chosenBlue⟩)
  | malformed written refused => exact .inr (.inl (.malformed written refused))
  | other number attributes foregrounds backgrounds =>
      exact .inr (.inl (.other number attributes foregrounds backgrounds))

namespace Style

variable {codes group : List Code} {groups : List (List Code)} {kind : Attribute}

theorem keeps_or_determines_group (grouped : CodeGroup group) (kind : Attribute) :
    Keeps group kind ∨ Determines group kind := by
  obtain ⟨after, selected⟩ := exists_rendition grouped plain
  rcases selected.uniform with resets | nothing | ⟨changed, value, sets⟩
  · exact .inr ⟨plain.get kind, fun style => by
      rw [apply_of_rendition grouped (resets style)]⟩
  · exact .inl fun style => by rw [apply_of_rendition grouped (nothing style)]
  · by_cases same : kind = changed
    · subst same
      exact .inr ⟨value, fun style => by
        rw [apply_of_rendition grouped (sets style), get_set_self]⟩
    · exact .inl fun style => by
        rw [apply_of_rendition grouped (sets style), get_set_of_ne style value same]

/-- Groups that leave an attribute alone do so one after the other. -/
theorem get_foldl_of_keeps (keeps : ∀ group ∈ groups, Keeps group kind) (style : Style) :
    (groups.foldl apply style).get kind = style.get kind := by
  induction groups generalizing style with
  | nil => rfl
  | cons group later induction =>
      obtain ⟨first, inLater⟩ := List.forall_mem_cons.mp keeps
      rw [List.foldl_cons, induction inLater, first style]

/-- The last group that determines an attribute decides what becomes of it. -/
theorem get_foldl_of_determines
    (each : ∀ group ∈ groups, Keeps group kind ∨ Determines group kind)
    (touched : ∃ group ∈ groups, Determines group kind) :
    ∃ value, ∀ style, (groups.foldl apply style).get kind = value := by
  induction groups using List.reverseRecOn with
  | nil => simp at touched
  | append_singleton groups last induction =>
      simp only [List.foldl_append, List.foldl_cons, List.foldl_nil]
      rcases each last (by simp) with keeps | ⟨value, determined⟩
      · have inFront : ∃ group ∈ groups, Determines group kind := by
          obtain ⟨group, member, determines⟩ := touched
          rcases List.mem_append.mp member with front | back
          · exact ⟨group, front, determines⟩
          · rw [List.mem_singleton.mp back] at determines
            exact absurd determines keeps.not_determines
        obtain ⟨value, determined⟩ := induction
          (fun group member => each group (List.mem_append_left _ member)) inFront
        exact ⟨value, fun style => by rw [keeps, determined]⟩
      · exact ⟨value, fun style => determined _⟩

theorem determines_of_group (member : group ∈ codeGroups codes)
    (determines : Determines group kind) : Determines codes kind := by
  obtain ⟨value, determined⟩ := get_foldl_of_determines
    (fun group member =>
      keeps_or_determines_group ((codeGroups_spec codes).1 group member) kind)
    ⟨group, member, determines⟩
  exact ⟨value, fun style => by rw [apply_eq_foldl, determined]⟩

theorem keeps_of_groups
    (untouched : ∀ group ∈ codeGroups codes, ¬Determines group kind) :
    Keeps codes kind := by
  intro style
  rw [apply_eq_foldl]
  apply get_foldl_of_keeps
  intro group member
  have grouped := (codeGroups_spec codes).1 group member
  exact (keeps_or_determines_group grouped kind).resolve_right (untouched group member)

/-- Codes determine what one of their groups determines. -/
theorem determines_iff : Determines codes kind ↔
    ∃ group ∈ codeGroups codes, Determines group kind := by
  constructor
  · intro determines
    by_contra untouched
    push Not at untouched
    exact (keeps_of_groups untouched).not_determines determines
  · rintro ⟨group, member, determines⟩
    exact determines_of_group member determines

theorem keeps_or_determines (codes : List Code) (kind : Attribute) :
    Keeps codes kind ∨ Determines codes kind := by
  by_cases determined : ∃ group ∈ codeGroups codes, Determines group kind
  · exact .inr (determines_iff.mpr determined)
  · exact .inl (keeps_of_groups fun group member determines =>
      determined ⟨group, member, determines⟩)

theorem apply_apply_self (style : Style) (codes : List Code) :
    (style.apply codes).apply codes = style.apply codes := by
  apply ext_get
  intro kind
  rcases keeps_or_determines codes kind with keeps | ⟨value, determined⟩
  · exact keeps (style.apply codes)
  · rw [determined, determined]

end Style

/-! ## Codes in two parts -/

/-- Whether one of the groups begins before a place in their codes and ends behind it. -/
def Straddles (groups : List (List Code)) (place : Nat) : Prop :=
  ∃ earlier group later, groups = earlier ++ group :: later ∧
    earlier.flatten.length < place ∧ place < earlier.flatten.length + group.length

section Parts

variable {groups front back : List (List Code)} {place : Nat}

theorem Straddles.cons (straddles : Straddles groups place) (first : List Code) :
    Straddles (first :: groups) (first.length + place) := by
  obtain ⟨earlier, group, later, rfl, begins, ends⟩ := straddles
  refine ⟨first :: earlier, group, later, rfl, ?_, ?_⟩ <;>
  · rw [List.flatten_cons, List.length_append]
    omega

/-- Groups of which none lies across a place are those before it and those behind it. -/
theorem exists_append_of_not_straddles (inside : place ≤ groups.flatten.length)
    (whole : ¬Straddles groups place) :
    ∃ front back, groups = front ++ back ∧ front.flatten.length = place := by
  induction groups generalizing place with
  | nil => exact ⟨[], [], rfl, (Nat.le_zero.mp inside).symm⟩
  | cons group later induction =>
      by_cases atStart : place = 0
      · exact ⟨[], group :: later, rfl, atStart.symm⟩
      have reached : group.length ≤ place := by
        by_contra before
        refine whole ⟨[], group, later, rfl, ?_, ?_⟩
        · exact Nat.pos_of_ne_zero atStart
        · rw [List.flatten_nil, List.length_nil, Nat.zero_add]
          exact Nat.lt_of_not_le before
      rw [List.flatten_cons, List.length_append] at inside
      have wholeLater : ¬Straddles later (place - group.length) := by
        intro straddles
        have moved := straddles.cons group
        rw [Nat.add_sub_cancel' reached] at moved
        exact whole moved
      obtain ⟨front, back, rfl, length⟩ := induction (by omega) wholeLater
      refine ⟨group :: front, back, rfl, ?_⟩
      rw [List.flatten_cons, List.length_append]
      omega

theorem not_straddles_append (front back : List (List Code)) :
    ¬Straddles (front ++ back) front.flatten.length := by
  rintro ⟨earlier, group, later, same, begins, ends⟩
  rcases List.append_eq_append_iff.mp same with ⟨gap, rfl, _⟩ | ⟨gap, rfl, rest⟩
  · rw [List.flatten_append, List.length_append] at begins
    omega
  · rw [List.flatten_append, List.length_append] at begins ends
    cases gap with
    | nil => exact absurd begins (by simp)
    | cons first gap =>
        obtain ⟨rfl, _⟩ := List.cons.inj rest
        rw [List.flatten_cons, List.length_append] at ends
        omega

theorem Completes.append {codes : List Code} (completes : Completes codes)
    (more : List Code) : Completes (codes ++ more) := by
  cases completes with
  | indexed index after => exact .indexed index (after ++ more)
  | channels red green blue after => exact .channels red green blue (after ++ more)

theorem keptApart_append (apart : KeptApart (front ++ back)) :
    KeptApart front ∧ KeptApart back := by
  induction front with
  | nil => exact ⟨trivial, apart⟩
  | cons group later induction =>
      obtain ⟨alone, apartLater⟩ := apart
      obtain ⟨inFront, inBack⟩ := induction apartLater
      refine ⟨⟨fun code same opens completes => ?_, inFront⟩, inBack⟩
      have longer := completes.append back.flatten
      rw [← List.flatten_append] at longer
      exact alone code same opens longer

/-- Codes in two parts have the groups of the parts exactly if no group lies across the
place between them. -/
theorem codeGroups_append_iff (codes later : List Code) :
    codeGroups (codes ++ later) = codeGroups codes ++ codeGroups later ↔
      ¬Straddles (codeGroups (codes ++ later)) codes.length := by
  obtain ⟨grouped, joined⟩ := codeGroups_spec (codes ++ later)
  constructor
  · intro parts
    rw [parts]
    have apart := not_straddles_append (codeGroups codes) (codeGroups later)
    rwa [(codeGroups_spec codes).2] at apart
  · intro whole
    have inside : codes.length ≤ (codeGroups (codes ++ later)).flatten.length := by
      rw [joined, List.length_append]
      omega
    obtain ⟨front, back, parts, length⟩ := exists_append_of_not_straddles inside whole
    rw [parts, List.flatten_append] at joined
    obtain ⟨frontCodes, backCodes⟩ := List.append_inj joined length
    rw [parts] at grouped
    obtain ⟨frontApart, backApart⟩ := keptApart_append (keptApart_of_codeGroups parts)
    have frontGroups := (codeGroups_flatten_iff fun group member =>
      grouped group (List.mem_append_left _ member)).mpr frontApart
    have backGroups := (codeGroups_flatten_iff fun group member =>
      grouped group (List.mem_append_right _ member)).mpr backApart
    rw [frontCodes] at frontGroups
    rw [backCodes] at backGroups
    rw [parts, frontGroups, backGroups]

end Parts

namespace Style

theorem apply_append {codes later : List Code}
    (whole : ¬Straddles (codeGroups (codes ++ later)) codes.length) (style : Style) :
    style.apply (codes ++ later) = (style.apply codes).apply later := by
  rw [apply_eq_foldl, (codeGroups_append_iff codes later).mpr whole, List.foldl_append,
    ← apply_eq_foldl, ← apply_eq_foldl]

/-- Codes leave an attribute as it is or give it a value of their own, and the latter for
just the attributes that one of their groups gives a value.  Taking them twice is taking
them once; after a reset nothing of the style before them is left; and they can be taken
in two parts unless a group lies across the place between the parts. -/
theorem apply_attributes (codes : List Code) :
    (∀ kind, Keeps codes kind ∨ Determines codes kind) ∧
      (∀ kind, Determines codes kind ↔
        ∃ group ∈ codeGroups codes, Determines group kind) ∧
      (∀ kind, Determines codes kind → ∀ left right : Style,
        (left.apply codes).get kind = (right.apply codes).get kind) ∧
      (∀ style : Style, (style.apply codes).apply codes = style.apply codes) ∧
      ((∃ group ∈ codeGroups codes, Resets group) →
        ∀ left right : Style, left.apply codes = right.apply codes) ∧
      ∀ later, ¬Straddles (codeGroups (codes ++ later)) codes.length →
        ∀ style : Style, style.apply (codes ++ later) = (style.apply codes).apply later := by
  refine ⟨keeps_or_determines codes, fun kind => determines_iff, ?_,
    fun style => style.apply_apply_self codes, ?_, fun later whole => apply_append whole⟩
  · rintro kind ⟨value, determined⟩ left right
    rw [determined, determined]
  · rintro ⟨group, member, resets⟩ left right
    exact apply_congr_of_resets member resets

/-- Bold, a reset and italic before a palette color. -/
theorem apply_attributes_of_resetBetween :
    let codes : List Code := [['1'], ['0'], ['3']]
    let later : List Code := [['3', '8'], ['5'], ['9']]
    Determines codes .bold ∧ (∃ group ∈ codeGroups codes, Resets group) ∧
      ¬Straddles (codeGroups (codes ++ later)) codes.length ∧
      (∀ left right : Style, left.apply codes = right.apply codes) ∧
      ∀ style : Style, style.apply (codes ++ later) = (style.apply codes).apply later := by
  intro codes later
  have resets : ∃ group ∈ codeGroups codes, Resets group :=
    ⟨[['0']], by decide +kernel, .zero (by decide)⟩
  have whole : ¬Straddles (codeGroups (codes ++ later)) codes.length :=
    (codeGroups_append_iff codes later).mp (by decide +kernel)
  obtain ⟨_, determined, _, _, isolated, parts⟩ := apply_attributes codes
  refine ⟨(determined .bold).mpr ⟨[['0']], by decide +kernel, false, fun style => ?_⟩, resets,
    whole, isolated resets, parts later whole⟩
  rw [apply_of_resets (.zero (by decide))]
  rfl

/-- A color that is selected over the place between two parts is lost in the parts. -/
example : plain.apply ([['3', '8']] ++ [['5'], ['9']]) ≠
    (plain.apply [['3', '8']]).apply [['5'], ['9']] := by
  decide +kernel

end Style

end LogTint
