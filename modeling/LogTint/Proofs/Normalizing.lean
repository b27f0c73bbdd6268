import LogTint.Proofs.Counting
import LogTint.Proofs.Cursors

/-!
# Palette colors turned into resets

Normalizing puts a reset in the place of every token that is written like a palette color
for the foreground.  The tokens of the result are known one by one, so are the counts, and
no token of the result is written like that.  What a style would take for such a color is
left where its number has a leading zero, and only there.
-/

namespace LogTint

/-! ## The tokens of a normalized text -/

/-- Sequences that count are known from how they are written. -/
theorem Sequence.eq_of_render_eq {literals : Bool} {first second : Sequence}
    (firstAdmitted : first.isAdmitted literals = true)
    (secondAdmitted : second.isAdmitted literals = true)
    (same : first.render = second.render) : first = second := by
  have readFirst : read? literals first.render = some (first, []) :=
    read?_eq_some_iff.mpr ⟨firstAdmitted, (List.append_nil _).symm⟩
  have readSecond : read? literals first.render = some (second, []) :=
    read?_eq_some_iff.mpr ⟨secondAdmitted, by rw [same, List.append_nil]⟩
  rw [readFirst] at readSecond
  cases readSecond
  rfl

theorem map_sequence_eq {tokens : List Token} {sequences : List Sequence}
    (admitted : ∀ token ∈ tokens, token.sequence.isAdmitted true = true)
    (othersAdmitted : ∀ sequence ∈ sequences, sequence.isAdmitted true = true)
    (same : tokens.map Token.text = sequences.map Sequence.render) :
    tokens.map Token.sequence = sequences := by
  induction tokens generalizing sequences with
  | nil => exact (List.map_eq_nil_iff.mp same.symm).symm
  | cons token tokens induction =>
      cases sequences with
      | nil => cases same
      | cons sequence sequences =>
          obtain ⟨first, rest⟩ := List.forall_mem_cons.mp admitted
          obtain ⟨otherFirst, otherRest⟩ := List.forall_mem_cons.mp othersAdmitted
          obtain ⟨sameFirst, sameRest⟩ := List.cons.inj same
          rw [List.map_cons, Sequence.eq_of_render_eq first otherFirst sameFirst,
            induction rest otherRest sameRest]

theorem codes_resetSequence : resetSequence.codes = [['0']] := by decide

/-- What normalizing makes of a token. -/
def Token.normalized (token : Token) : Sequence :=
  if token.selectsIndexed then resetSequence else token.sequence

section Normalized

variable {text : Text} {token : Token}

theorem Token.isAdmitted_normalized (admitted : token.sequence.isAdmitted true = true) :
    token.normalized.isAdmitted true = true := by
  unfold normalized
  split
  case isTrue => rfl
  case isFalse => exact admitted

theorem Token.render_normalized (token : Token) :
    token.normalized.render =
      if token.selectsIndexed then resetSequence.render else token.text := by
  unfold normalized
  split <;> rfl

/-- What is written for a token is the token, normalized. -/
theorem Token.answer_getD (token : Token) :
    (if token.selectsIndexed then some resetSequence.render else none).getD token.text =
      token.normalized.render := by
  unfold normalized
  split <;> rfl

theorem normalizeIndexed_eq_interleave (text : Text) :
    normalizeIndexed text = interleave text.runs ((text.tokens true).map fun token =>
      if token.selectsIndexed then resetSequence.render else token.text) := by
  have parts : normalizeIndexed text = _ := rewriteTokens_getD text _
  simpa only [Token.answer_getD, Token.render_normalized] using parts

theorem rewritten_normalizeIndexed (text : Text) :
    text.Rewritten ((text.tokens true).map fun token => token.normalized.render)
      (normalizeIndexed text) := by
  have rewritten := rewritten_rewriteTokens
    (fun token => if token.selectsIndexed then some resetSequence.render else none) text
    fun token _ answer replaced => by
      obtain ⟨_, reset⟩ := Option.ite_none_right_eq_some.mp replaced
      exact Option.some.inj reset ▸ resetSequence_isSequence
  simp only [Token.answer_getD] at rewritten
  exact rewritten

/-- The tokens of a normalized text are the tokens of the text, normalized. -/
theorem sequences_normalizeIndexed (text : Text) :
    ((normalizeIndexed text).tokens true).map Token.sequence =
      (text.tokens true).map Token.normalized := by
  apply map_sequence_eq
  · intro token member
    exact (Text.mem_tokens_iff.mp member).1
  · intro sequence member
    obtain ⟨token, isToken, rfl⟩ := List.mem_map.mp member
    exact Token.isAdmitted_normalized (Text.mem_tokens_iff.mp isToken).1
  · rw [(rewritten_normalizeIndexed text).tokens, List.map_map]
    rfl

/-- A token of a normalized text is a reset or was kept. -/
theorem reset_or_kept_of_mem (member : token ∈ (normalizeIndexed text).tokens true) :
    token.sequence = resetSequence ∨
      ∃ kept ∈ text.tokens true, kept.selectsIndexed = false ∧ kept.sequence = token.sequence := by
  have among : token.sequence ∈ (text.tokens true).map Token.normalized := by
    rw [← sequences_normalizeIndexed]
    exact List.mem_map_of_mem member
  obtain ⟨earlier, isEarlier, same⟩ := List.mem_map.mp among
  unfold Token.normalized at same
  split at same
  case isTrue => exact .inl same.symm
  case isFalse other => exact .inr ⟨earlier, isEarlier, Bool.eq_false_iff.mpr other, same⟩

/-- A token that is kept is a token of the normalized text. -/
theorem exists_mem_of_kept (member : token ∈ text.tokens true)
    (kept : token.selectsIndexed = false) :
    ∃ later ∈ (normalizeIndexed text).tokens true, later.sequence = token.sequence := by
  have among : token.sequence ∈
      ((normalizeIndexed text).tokens true).map Token.sequence := by
    rw [sequences_normalizeIndexed]
    refine List.mem_map.mpr ⟨token, member, ?_⟩
    rw [Token.normalized, kept]
    rfl
  exact List.mem_map.mp among

/-! ## Normalizing twice -/

theorem Token.selectsIndexed_congr {left right : Token} (same : left.sequence = right.sequence) :
    left.selectsIndexed = right.selectsIndexed := by
  unfold selectsIndexed hasCategory codes
  rw [same]

theorem selectsIndexed_of_mem_normalizeIndexed
    (member : token ∈ (normalizeIndexed text).tokens true) : token.selectsIndexed = false := by
  rcases reset_or_kept_of_mem member with reset | ⟨kept, _, notSelected, same⟩
  · unfold Token.selectsIndexed
    rw [Token.codes, reset, codes_resetSequence]
  · rw [← Token.selectsIndexed_congr same, notSelected]

theorem normalizeIndexed?_eq_none_iff (text : Text) :
    normalizeIndexed? text = none ↔ ∀ token ∈ text.tokens true, token.selectsIndexed = false := by
  rw [normalizeIndexed?, rewriteTokens_eq_none_iff]
  simp

theorem normalizeIndexed?_normalizeIndexed (text : Text) :
    normalizeIndexed? (normalizeIndexed text) = none :=
  (normalizeIndexed?_eq_none_iff _).mpr fun _ => selectsIndexed_of_mem_normalizeIndexed

end Normalized

/-! ## Counts that move -/

/-- A token that is replaced has one category, the palette colors. -/
theorem Token.hasCategory_of_selectsIndexed {token : Token}
    (selects : token.selectsIndexed = true) (category : Category) :
    token.hasCategory category = decide (category = .indexedColor) := by
  obtain ⟨index, _, codes⟩ := selectsIndexed_iff.mp selects
  have opens : Layer.ofCode? ['3', '8'] = some .foreground := by decide
  rw [hasCategory, Category.occursIn, codes, codeGroups_palette opens, List.any_cons,
    Category.ofGroup?_palette opens, List.any_nil, Bool.or_false, decide_eq_decide,
    Option.some_inj]
  exact eq_comm

theorem Category.occursIn_resetSequence (category : Category) :
    category.occursIn resetSequence.codes = decide (category = .reset) := by
  cases category <;> decide +kernel

/-- What is replaced leaves one count and joins another. -/
theorem countP_normalized (tokens : List Token) (category : Category) :
    (tokens.countP fun token => category.occursIn token.normalized.codes) +
        (if category = .indexedColor then tokens.countP Token.selectsIndexed else 0) =
      (tokens.countP fun token => token.hasCategory category) +
        (if category = .reset then tokens.countP Token.selectsIndexed else 0) := by
  induction tokens with
  | nil => simp
  | cons token tokens induction =>
      simp only [List.countP_cons]
      by_cases selects : token.selectsIndexed = true
      · rw [Token.normalized, if_pos selects, Category.occursIn_resetSequence,
          Token.hasCategory_of_selectsIndexed selects]
        simp only [selects, decide_eq_true_eq, if_true]
        split_ifs at induction ⊢ <;> omega
      · rw [Token.normalized, if_neg selects]
        have same : category.occursIn token.sequence.codes = token.hasCategory category := rfl
        simp only [same, selects, Bool.false_eq_true, if_false, Nat.add_zero]
        omega

theorem count_normalizeIndexed (text : Text) (category : Category) :
    (Statistics.collect (normalizeIndexed text)).count category +
        (if category = .indexedColor then (text.tokens true).countP Token.selectsIndexed else 0) =
      (Statistics.collect text).count category +
        (if category = .reset then (text.tokens true).countP Token.selectsIndexed else 0) := by
  have tokens : (Statistics.collect (normalizeIndexed text)).count category =
      (text.tokens true).countP fun token => category.occursIn token.normalized.codes := by
    rw [Statistics.count_collect]
    have bySequence := congrArg
      (List.countP fun sequence : Sequence => category.occursIn sequence.codes)
      (sequences_normalizeIndexed text)
    rw [List.countP_map, List.countP_map] at bySequence
    exact bySequence
  rw [tokens, Statistics.count_collect, countP_normalized]

/-- A normalized text is left alone by a second pass.  It has as many tokens as the text,
on as many lines; each token that is replaced is counted as a reset and no longer as a
palette color, and nothing else changes. -/
theorem normalizing_moves_counts (text : Text) :
    let output := normalizeIndexed text
    let before := Statistics.collect text
    let after := Statistics.collect output
    let replaced := (text.tokens true).countP Token.selectsIndexed
    output = interleave text.runs ((text.tokens true).map fun token =>
        if token.selectsIndexed then resetSequence.render else token.text) ∧
      normalizeIndexed? output = none ∧ normalizeIndexed output = output ∧
      after.totalCodes = before.totalCodes ∧ after.totalLines = before.totalLines ∧
      after.linesWithCodes = before.linesWithCodes ∧
      after.count .indexedColor + replaced = before.count .indexedColor ∧
      after.count .reset = before.count .reset + replaced ∧
      (∀ category, category ≠ .indexedColor → category ≠ .reset →
        after.count category = before.count category) ∧
      (normalizeIndexed? text = none ↔ replaced = 0) := by
  intro output before after replaced
  have rewritten : text.Rewritten _ output := rewritten_normalizeIndexed text
  have again : normalizeIndexed? output = none := normalizeIndexed?_normalizeIndexed text
  have moved (category : Category) := count_normalizeIndexed text category
  refine ⟨normalizeIndexed_eq_interleave text, again, ?_, rewritten.totalCodes,
    rewritten.totalLines, rewritten.linesWithCodes, ?_, ?_, ?_, ?_⟩
  · rw [normalizeIndexed, again]
    rfl
  · simpa using moved .indexedColor
  · simpa using moved .reset
  · intro category notPalette notReset
    simpa [notPalette, notReset] using moved category
  · rw [normalizeIndexed?_eq_none_iff, List.countP_eq_zero]
    simp

/-! ## What a style takes for a palette color -/

/-- A token is replaced exactly if selecting a palette color for the foreground is all that
its codes do and no zero stands before them.  So it is exactly the texts without such a
zero in which all tokens of this kind are replaced, and of which none is left. -/
theorem normalizing_recognizes (text : Text) :
    let output := normalizeIndexed text
    output = interleave text.runs ((text.tokens true).map fun token =>
        if token.selectsIndexed then resetSequence.render else token.text) ∧
      (∀ token ∈ text.tokens true, token.selectsIndexed = true ↔
        SelectsForeground token.codes ∧ ¬token.HasLeadingZero) ∧
      (∀ token ∈ output.tokens true,
        SelectsForeground token.codes → token.HasLeadingZero) ∧
      ((∀ token ∈ text.tokens true,
          (token.selectsIndexed = true ↔ SelectsForeground token.codes)) ↔
        ∀ token ∈ text.tokens true,
          SelectsForeground token.codes → ¬token.HasLeadingZero) ∧
      ((∀ token ∈ output.tokens true, ¬SelectsForeground token.codes) ↔
        ∀ token ∈ text.tokens true,
          SelectsForeground token.codes → ¬token.HasLeadingZero) := by
  intro output
  have recognized : ∀ token ∈ text.tokens true, token.selectsIndexed = true ↔
      SelectsForeground token.codes ∧ ¬token.HasLeadingZero := fun token member =>
    Token.selectsIndexed_iff_selectsForeground (Text.mem_tokens_iff.mp member).1
  have left : ∀ token ∈ output.tokens true,
      SelectsForeground token.codes → token.HasLeadingZero := by
    intro token member selects
    by_contra bare
    have notSelected := selectsIndexed_of_mem_normalizeIndexed member
    rw [(Token.selectsIndexed_iff_selectsForeground (Text.mem_tokens_iff.mp member).1).mpr
      ⟨selects, bare⟩] at notSelected
    cases notSelected
  refine ⟨normalizeIndexed_eq_interleave text, recognized, left, ?_, ?_⟩
  · refine forall₂_congr fun token member => ?_
    rw [recognized token member]
    exact and_iff_left_iff_imp
  · constructor
    · intro none token member selects zero
      have kept : token.selectsIndexed = false := by
        rw [Bool.eq_false_iff, Ne, recognized token member]
        exact fun selected => selected.2 zero
      obtain ⟨later, isLater, same⟩ := exists_mem_of_kept member kept
      refine none later isLater ?_
      rwa [Token.codes, same]
    · intro bare token member selects
      rcases reset_or_kept_of_mem member with reset | ⟨kept, isKept, _, same⟩
      · rw [Token.codes, reset, codes_resetSequence] at selects
        obtain ⟨first, index, codes, _⟩ := selectsForeground_iff.mp selects
        cases codes
      · have zero := left token member selects
        have sameCodes : kept.codes = token.codes := congrArg Sequence.codes same
        refine bare kept isKept ?_ ?_
        · rwa [sameCodes]
        · rwa [Token.HasLeadingZero, sameCodes]

/-- A palette color whose first code is written with a leading zero. -/
def padded : Text := ['\x1b', '[', '0', '3', '8', ';', '5', ';', '1', 'm', 'x']

/-- It is all that the token does, and still the token is left. -/
theorem padded_selection_left :
    let token : Token := ⟨0, .escape, ['0', '3', '8', ';', '5', ';', '1']⟩
    padded.tokens true = [token] ∧ SelectsForeground token.codes ∧
      token.selectsIndexed = false ∧ normalizeIndexed? padded = none ∧
      (normalizeIndexed padded).tokens true = [token] := by
  refine ⟨by decide +kernel, selectsForeground_iff.mpr ⟨['0', '3', '8'], ['1'], ?_⟩,
    by decide +kernel, by decide +kernel, by decide +kernel⟩
  decide +kernel

end LogTint
