import LogTint.Proofs.Lookup
import Mathlib.Data.List.Find
import Mathlib.Data.List.Pairwise

/-!
# Appending to a text

What was found in a text is found again when something is appended to it.  One
sequence at most comes to be completed; what was there of it had been literal text.
-/

namespace LogTint

namespace Text

variable {literals : Bool} {first second : Text} {token other : Token} {offset : Nat}

/-- The tokens of a text are those of a longer one that end with it or before. -/
theorem tokens_of_append (literals : Bool) (first second : Text) :
    first.tokens literals =
      ((first ++ second).tokens literals).filter (·.stop ≤ first.size) := by
  apply tokens_ext (first.tokens_pairwise literals)
    (((first ++ second).tokens_pairwise literals).filter _)
  intro token
  rw [List.mem_filter, decide_eq_true_iff]
  constructor
  · intro member
    refine ⟨?_, stop_le_size member⟩
    obtain ⟨admitted, before, after, same, start⟩ := mem_tokens_iff.mp member
    refine mem_tokens_iff.mpr ⟨admitted, before, after ++ second, ?_, start⟩
    rw [same, List.append_assoc, List.append_assoc]
  · rintro ⟨member, inside⟩
    obtain ⟨admitted, before, after, same, start⟩ := mem_tokens_iff.mp member
    rw [← List.append_assoc] at same
    rcases List.append_eq_append_iff.mp same with ⟨rest, longer, _⟩ | ⟨rest, shorter, _⟩
    · -- The token would end after the text, unless nothing is left of it there.
      have sizes : size (before ++ token.text) = size (first ++ rest) := by rw [longer]
      rw [size_append, size_append] at sizes
      have nothing : rest = [] := by
        apply size_eq_zero_iff.mp
        rw [Token.stop, start] at inside
        omega
      refine mem_tokens_iff.mpr ⟨admitted, before, [], ?_, start⟩
      rw [nothing, List.append_nil] at longer
      rw [List.append_nil, longer]
    · refine mem_tokens_iff.mpr ⟨admitted, before, rest, ?_, start⟩
      rw [shorter, List.append_assoc]

/-- The tokens of a text that hold bytes on both sides of an offset. -/
def straddling (text : Text) (literals : Bool) (offset : Nat) : List Token :=
  (text.tokens literals).filter fun token => token.start < offset ∧ offset < token.stop

theorem mem_straddling {text : Text} :
    token ∈ text.straddling literals offset ↔
      token ∈ text.tokens literals ∧ token.start < offset ∧ offset < token.stop := by
  rw [straddling, List.mem_filter, decide_eq_true_iff]

theorem length_straddling (text : Text) (literals : Bool) (offset : Nat) :
    (text.straddling literals offset).length ≤ 1 := by
  have ordered : (text.straddling literals offset).Pairwise fun earlier later =>
      earlier.stop ≤ later.start := (text.tokens_pairwise literals).filter _
  match kept : text.straddling literals offset with
  | [] => exact Nat.zero_le 1
  | [_] => exact Nat.le_refl 1
  | token :: other :: later =>
      rw [kept] at ordered
      have apart : token.stop ≤ other.start :=
        List.rel_of_pairwise_cons ordered List.mem_cons_self
      have isToken : token ∈ text.straddling literals offset := by simp [kept]
      have isOther : other ∈ text.straddling literals offset := by simp [kept]
      have ends := (mem_straddling.mp isToken).2.2
      have begins := (mem_straddling.mp isOther).2.1
      omega

theorem find?_holds_of_mem {text : Text} (member : token ∈ text.tokens literals)
    (holds : token.range.holds offset = true) :
    (text.tokens literals).find? (·.range.holds offset) = some token :=
  (find?_holds_eq_some_iff Token.range offset token (text.tokens_pairwise literals)).mpr
    ⟨member, holds⟩

/-- No two tokens of a text hold the same offset. -/
theorem eq_of_holds {text : Text} (member : token ∈ text.tokens literals)
    (otherMember : other ∈ text.tokens literals)
    (holds : token.range.holds offset = true) (otherHolds : other.range.holds offset = true) :
    token = other := by
  have found := find?_holds_of_mem member holds
  rw [find?_holds_of_mem otherMember otherHolds] at found
  exact (Option.some.inj found).symm

/-- What holds an offset inside a text either ends with the text or straddles its end. -/
theorem stop_le_or_straddling (inside : offset < first.size)
    (member : token ∈ (first ++ second).tokens literals)
    (holds : token.range.holds offset = true) :
    token.stop ≤ first.size ∨
      token ∈ (first ++ second).straddling literals first.size := by
  obtain ⟨starts, _⟩ := ByteRange.holds_iff.mp holds
  by_cases ends : token.stop ≤ first.size
  · exact .inl ends
  · exact .inr (mem_straddling.mpr ⟨member, Nat.lt_of_le_of_lt starts inside, by omega⟩)

/-- Before the end of a text, and outside of what straddles it, the same tokens hold an
offset whether or not more was appended. -/
theorem find?_holds_of_append (inside : offset < first.size)
    (free : ∀ token ∈ (first ++ second).straddling literals first.size,
      token.range.holds offset = false) :
    ((first ++ second).tokens literals).find? (·.range.holds offset) =
      (first.tokens literals).find? (·.range.holds offset) := by
  rw [tokens_of_append literals first second, List.find?_filter]
  apply List.find?_congr
  intro token member
  cases holds : token.range.holds offset with
  | false => simp
  | true =>
      rcases stop_le_or_straddling inside member holds with ends | straddles
      · simp [ends]
      · cases holds.symm.trans (free token straddles)

end Text

namespace Highlights

variable {first second : Text} {config : HighlightConfig} {offset : Nat} {token : Token}

theorem styleBefore_of_append (literals : Bool) (inside : offset < first.size) :
    styleBefore ((first ++ second).tokens literals) offset =
      styleBefore (first.tokens literals) offset := by
  rw [Text.tokens_of_append literals first second, styleBefore, styleBefore,
    List.filter_filter]
  congr 3
  funext token
  rw [← Bool.decide_and]
  apply decide_eq_decide.mpr
  omega

theorem styleAt?_of_append (inside : offset < first.size)
    (free : ∀ token ∈ (first ++ second).straddling config.literals first.size,
      token.range.holds offset = false) :
    (compute (first ++ second) config).styleAt? offset =
      (compute first config).styleAt? offset := by
  have sameTokens := Text.find?_holds_of_append inside free
  have within : offset < (first ++ second).size := by
    rw [Text.size_append]
    omega
  rw [styleAt?_compute, styleAt?_compute, styleBefore_of_append config.literals inside]
  apply if_congr _ rfl rfl
  have unheld : ∀ tokens : List Token,
      (∀ token ∈ tokens, token.range.holds offset = false) ↔
        tokens.find? (·.range.holds offset) = none := by
    simp
  rw [unheld, unheld, sameTokens]
  exact and_congr_left' (iff_of_true within inside)

theorem foldAt?_of_append (inside : offset < first.size)
    (free : ∀ token ∈ (first ++ second).straddling config.literals first.size,
      token.range.holds offset = false) :
    (compute (first ++ second) config).foldAt? offset =
      (compute first config).foldAt? offset := by
  rw [foldAt?_compute, foldAt?_compute, Text.find?_holds_of_append inside free]

/-- What was there of a token that straddles the end of a text was literal. -/
theorem literal_of_straddling (inside : offset < first.size)
    (straddles : token ∈ (first ++ second).straddling config.literals first.size)
    (holds : token.range.holds offset = true) :
    (∀ other ∈ first.tokens config.literals, other.range.holds offset = false) ∧
      (compute first config).styleAt? offset =
        some (styleBefore (first.tokens config.literals) offset) := by
  have free : ∀ other ∈ first.tokens config.literals,
      other.range.holds offset = false := by
    intro other member
    apply Bool.eq_false_iff.mpr
    intro otherHolds
    have ends := Text.stop_le_size member
    obtain ⟨isToken, _, passes⟩ := Text.mem_straddling.mp straddles
    rw [Text.tokens_of_append config.literals first second] at member
    have same := Text.eq_of_holds (List.mem_filter.mp member).1 isToken otherHolds holds
    rw [same] at ends
    omega
  refine ⟨free, ?_⟩
  rw [styleAt?_compute]
  exact if_pos ⟨inside, free⟩

/-- Whatever is appended to a text, the tokens of the text stay as they were, and so
does what is found at any of its offsets, unless the offset lies in the one token that
straddles the end: it was literal text before, and belongs to that token now. -/
theorem appending_keeps (first second : Text) (config : HighlightConfig) :
    let whole := first ++ second
    let before := compute first config
    let after := compute whole config
    let straddling := whole.straddling config.literals first.size
    first.tokens config.literals =
        (whole.tokens config.literals).filter (·.stop ≤ first.size) ∧
      straddling.length ≤ 1 ∧
      (∀ offset < first.size, (∀ token ∈ straddling, token.range.holds offset = false) →
        after.styleAt? offset = before.styleAt? offset ∧
          after.foldAt? offset = before.foldAt? offset) ∧
      ∀ offset < first.size, ∀ token ∈ straddling, token.range.holds offset = true →
        ((before.styleAt? offset).isSome = true ∧ before.foldAt? offset = none ∧
          ∀ other ∈ first.tokens config.literals, other.range.holds offset = false) ∧
        after.styleAt? offset = none ∧
          after.foldAt? offset = if config.folds then some token.range else none := by
  intro whole before after straddling
  refine ⟨Text.tokens_of_append _ _ _, whole.length_straddling _ _, ?_, ?_⟩
  · intro offset inside free
    exact ⟨styleAt?_of_append inside free, foldAt?_of_append inside free⟩
  · intro offset inside token straddles holds
    obtain ⟨free, literal⟩ := literal_of_straddling inside straddles holds
    have isToken := (Text.mem_straddling.mp straddles).1
    refine ⟨⟨by rw [literal]; rfl, ?_, free⟩, ?_, ?_⟩
    · have none : (first.tokens config.literals).find? (·.range.holds offset) = none := by
        simpa using free
      rw [foldAt?_compute, none]
      split <;> rfl
    · rw [styleAt?_compute]
      apply if_neg
      rintro ⟨_, unheld⟩
      cases holds.symm.trans (unheld token isToken)
    · rw [foldAt?_compute, Text.find?_holds_of_mem isToken holds]
      rfl

/-- A text that ends in the middle of a sequence. -/
def cutShort : Text := ['a', '\x1b', '[', '3']

theorem appending_keeps_of_cutShort :
    let whole := cutShort ++ ['1', 'm', 'b']
    let token : Token := ⟨1, .escape, ['3', '1']⟩
    let before := compute cutShort .enabled
    let after := compute whole .enabled
    (whole.straddling true 4 = [token] ∧ token.range.holds 0 = false ∧
      after.styleAt? 0 = before.styleAt? 0 ∧ after.foldAt? 0 = before.foldAt? 0) ∧
      token.range.holds 2 = true ∧ (before.styleAt? 2).isSome = true ∧
      before.foldAt? 2 = none ∧ after.styleAt? 2 = none ∧
      after.foldAt? 2 = some token.range := by
  intro whole token before after
  have straddles : whole.straddling true 4 = [token] := by decide +kernel
  obtain ⟨-, -, kept, completed⟩ := appending_keeps cutShort ['1', 'm', 'b'] .enabled
  have free : ∀ other ∈ whole.straddling true 4, other.range.holds 0 = false := by
    rw [straddles]
    exact List.forall_mem_singleton.mpr rfl
  have straddling : token ∈ whole.straddling true 4 := by
    rw [straddles]
    exact List.mem_cons_self
  have inside := completed 2 (by decide) token straddling (by decide)
  refine ⟨⟨straddles, rfl, kept 0 (by decide) free⟩, rfl, inside.1.1, inside.1.2.1, inside.2⟩

end Highlights

end LogTint
