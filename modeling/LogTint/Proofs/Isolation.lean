import LogTint.Proofs.Appending
import LogTint.Proofs.Rendition

/-!
# What a reset keeps apart

A text that begins with a sequence is cut off from whatever is put before it: no
sequence reaches over the seam, so its own sequences are found again, moved by as much
as was put before them.  If that first sequence resets the style, then the style before
it does not show either.  Highlighting the whole is then highlighting both texts on
their own.
-/

namespace LogTint

/-! ## Groups that reset -/

/-- A group that makes every style plain: an empty code or a zero on its own. -/
inductive Resets : List Code → Prop where
  | empty : Resets [[]]
  | zero {code : Code} (number : code.number? = some 0) : Resets [code]

namespace Style

theorem apply_of_resets {group : List Code} (resets : Resets group) (style : Style) :
    style.apply group = plain := by
  cases resets with
  | empty => exact apply_of_rendition (.single []) (.empty style)
  | zero number => exact apply_of_rendition (.single _) (.reset number style)

/-- Codes with a reset among their groups make the same of every style. -/
theorem apply_congr_of_resets {codes group : List Code} {left right : Style}
    (member : group ∈ codeGroups codes) (resets : Resets group) :
    left.apply codes = right.apply codes := by
  obtain ⟨before, after, groups⟩ := List.append_of_mem member
  rw [apply_eq_foldl, apply_eq_foldl, groups, List.foldl_append, List.foldl_append,
    List.foldl_cons, List.foldl_cons, apply_of_resets resets, apply_of_resets resets]

end Style

/-! ## Sequences at a seam -/

/-- A token at a place further on. -/
def Token.shift (offset : Nat) (token : Token) : Token :=
  { token with start := offset + token.start }

@[simp] theorem Token.start_shift (offset : Nat) (token : Token) :
    (token.shift offset).start = offset + token.start := rfl

@[simp] theorem Token.stop_shift (offset : Nat) (token : Token) :
    (token.shift offset).stop = offset + token.stop :=
  Nat.add_assoc _ _ _

@[simp] theorem Token.codes_shift (offset : Nat) (token : Token) :
    (token.shift offset).codes = token.codes := rfl

namespace Text

variable {literals : Bool} {first second : Text} {opening token : Token}

/-- A token of a whole whose second part begins with a token belongs to one part. -/
theorem mem_tokens_append (opens : opening ∈ second.tokens literals)
    (atStart : opening.start = 0) (member : token ∈ (first ++ second).tokens literals) :
    token ∈ first.tokens literals ∨
      ∃ own ∈ second.tokens literals, token = own.shift first.size := by
  obtain ⟨openingAdmitted, front, rest, secondSame, openingStart⟩ := mem_tokens_iff.mp opens
  obtain ⟨admitted, before, after, same, start⟩ := mem_tokens_iff.mp member
  have noFront : front = [] := size_eq_zero_iff.mp (by omega)
  subst noFront
  rcases List.append_eq_append_iff.mp same with ⟨gap, beforeSame, rest⟩ | ⟨gap, firstSame, rest⟩
  · -- The token begins in the second part.
    refine .inr ⟨⟨size gap, token.sequence⟩, ?_, ?_⟩
    · exact mem_tokens_iff.mpr ⟨admitted, gap, after, rest, rfl⟩
    · rw [beforeSame, size_append] at start
      cases token
      cases start
      rfl
  · -- It begins in the first; the opening one tells it where to end.
    rw [secondSame, List.nil_append] at rest
    rcases Sequence.append_eq_append admitted openingAdmitted rest with
      ⟨rfl, sameSequence, _⟩ | ⟨between, gapSame, _⟩
    · refine .inr ⟨opening, opens, ?_⟩
      rw [List.append_nil] at firstSame
      cases token
      cases opening
      cases sameSequence
      simp only [Token.shift, Token.mk.injEq, and_true] at start atStart ⊢
      rw [start, firstSame, atStart, Nat.add_zero]
    · refine .inl (mem_tokens_iff.mpr ⟨admitted, before, between, ?_, start⟩)
      rw [firstSame, gapSame]
      rfl

theorem shift_mem_tokens_append (first : Text) (member : token ∈ second.tokens literals) :
    token.shift first.size ∈ (first ++ second).tokens literals := by
  obtain ⟨admitted, before, after, same, start⟩ := mem_tokens_iff.mp member
  refine mem_tokens_iff.mpr ⟨admitted, first ++ before, after, ?_, ?_⟩
  · rw [same, List.append_assoc]
    rfl
  · rw [Token.start_shift, start, size_append]

/-- No token reaches over the beginning of a text that begins with a token. -/
theorem tokens_append (first : Text) (opens : opening ∈ second.tokens literals)
    (atStart : opening.start = 0) :
    (first ++ second).tokens literals =
      first.tokens literals ++ (second.tokens literals).map (Token.shift first.size) := by
  apply tokens_ext ((first ++ second).tokens_pairwise literals)
  · refine List.pairwise_append.mpr ⟨first.tokens_pairwise literals, ?_, ?_⟩
    · refine List.pairwise_map.mpr ((second.tokens_pairwise literals).imp ?_)
      intro earlier later ordered
      rw [Token.stop_shift, Token.start_shift]
      omega
    · intro earlier isEarlier later isLater
      obtain ⟨own, _, rfl⟩ := List.mem_map.mp isLater
      have inside := stop_le_size isEarlier
      rw [Token.start_shift]
      omega
  · intro token
    rw [List.mem_append, List.mem_map]
    constructor
    · intro member
      refine (mem_tokens_append opens atStart member).imp_right ?_
      rintro ⟨own, isOwn, rfl⟩
      exact ⟨own, isOwn, rfl⟩
    · rintro (inFirst | ⟨own, isOwn, rfl⟩)
      · rw [tokens_of_append literals first second] at inFirst
        exact (List.mem_filter.mp inFirst).1
      · exact shift_mem_tokens_append first isOwn

/-- What starts at the beginning of a text comes first. -/
theorem tokens_eq_cons (opens : opening ∈ second.tokens literals)
    (atStart : opening.start = 0) : ∃ later, second.tokens literals = opening :: later := by
  have ordered := second.tokens_pairwise literals
  match tokens : second.tokens literals with
  | [] =>
      rw [tokens] at opens
      cases opens
  | token :: later =>
      rw [tokens] at opens ordered
      rcases List.mem_cons.mp opens with rfl | isLater
      · exact ⟨later, rfl⟩
      · have after := List.rel_of_pairwise_cons ordered isLater
        have positive := token.start_lt_stop
        omega

end Text

/-! ## Spans at a seam -/

/-- A range at a place further on. -/
def ByteRange.shift (offset : Nat) (range : ByteRange) : ByteRange :=
  ⟨offset + range.start, offset + range.stop⟩

/-- A span at a place further on. -/
def Span.shift (offset : Nat) (span : Span) : Span :=
  ⟨offset + span.start, offset + span.stop, span.style⟩

@[simp] theorem Token.range_shift (offset : Nat) (token : Token) :
    (token.shift offset).range = token.range.shift offset := by
  rw [range, range, ByteRange.shift, stop_shift]
  rfl

theorem literalRun_shift (offset start stop : Nat) (style : Style) :
    literalRun (offset + start) (offset + stop) style =
      (literalRun start stop style).map (Span.shift offset) := by
  unfold literalRun
  by_cases nonempty : start < stop
  · rw [if_pos nonempty, if_pos (by omega)]
    rfl
  · rw [if_neg nonempty, if_neg (by omega)]
    rfl

/-- Spans move with their tokens. -/
theorem spansFrom_shift (offset limit cursor : Nat) (style : Style) (tokens : List Token) :
    spansFrom (offset + limit) (offset + cursor) style (tokens.map (Token.shift offset)) =
      (spansFrom limit cursor style tokens).map (Span.shift offset) := by
  induction tokens generalizing cursor style with
  | nil => exact literalRun_shift offset cursor limit style
  | cons token later induction =>
      rw [List.map_cons, spansFrom, spansFrom, List.map_append, Token.start_shift,
        Token.stop_shift, Token.codes_shift, literalRun_shift, induction]

/-- The spans before a token are those of a text that ends where it begins. -/
theorem spansFrom_append_cons (limit cursor : Nat) (style : Style) (earlier : List Token)
    (token : Token) (later : List Token) :
    spansFrom limit cursor style (earlier ++ token :: later) =
      spansFrom token.start cursor style earlier ++
        spansFrom limit token.stop
          (((earlier.map Token.codes).foldl Style.apply style).apply token.codes) later := by
  induction earlier generalizing cursor style with
  | nil => rfl
  | cons first earlier induction =>
      rw [List.cons_append, spansFrom, spansFrom, induction, List.append_assoc]
      rfl

/-- Whether a text begins with a token that resets the style. -/
def Text.OpensWithReset (literals : Bool) (text : Text) : Prop :=
  ∃ token ∈ text.tokens literals, token.start = 0 ∧
    ∃ group ∈ codeGroups token.codes, Resets group

namespace Highlights

variable {first second : Text} {config : HighlightConfig}

/-- The results for a text and, moved further on, for the one after it. -/
def append (offset : Nat) (front back : Highlights) : Highlights :=
  { spans := front.spans ++ back.spans.map (Span.shift offset)
    folds := front.folds ++ back.folds.map (ByteRange.shift offset) }

/-- A text that begins with a reset is highlighted on its own. -/
theorem compute_append (opens : second.OpensWithReset config.literals) :
    compute (first ++ second) config =
      append first.size (compute first config) (compute second config) := by
  obtain ⟨opening, isToken, atStart, group, isGroup, resets⟩ := opens
  have tokens := Text.tokens_append first isToken atStart
  obtain ⟨later, secondTokens⟩ := Text.tokens_eq_cons isToken atStart
  have moved : (opening.shift first.size).start = first.size := by
    rw [Token.start_shift, atStart, Nat.add_zero]
  have noRun : literalRun 0 opening.start Style.plain = [] := by
    rw [atStart]
    rfl
  have spans : spansFrom (first ++ second).size 0 Style.plain
      ((first ++ second).tokens config.literals) =
        spansFrom first.size 0 Style.plain (first.tokens config.literals) ++
          (spansFrom second.size 0 Style.plain
            (second.tokens config.literals)).map (Span.shift first.size) := by
    rw [tokens, secondTokens, List.map_cons, spansFrom_append_cons, moved, Token.stop_shift,
      Token.codes_shift, Text.size_append, spansFrom_shift, spansFrom, noRun, List.nil_append]
    congr 3
    exact Style.apply_congr_of_resets isGroup resets
  have folds : ((first ++ second).tokens config.literals).map Token.range =
      (first.tokens config.literals).map Token.range ++
        ((second.tokens config.literals).map Token.range).map (ByteRange.shift first.size) := by
    rw [tokens, List.map_append, List.map_map, List.map_map]
    congr 1
    apply List.map_congr_left
    intro token _
    exact token.range_shift first.size
  unfold compute append
  dsimp only
  rw [spans, folds]
  cases config.folds with
  | true => rfl
  | false => rfl

/-- What starts at or after an offset, as seen from there. -/
def since (highlights : Highlights) (offset : Nat) : Highlights :=
  { spans := (highlights.spans.filter (offset ≤ ·.start)).map fun span =>
      ⟨span.start - offset, span.stop - offset, span.style⟩
    folds := (highlights.folds.filter (offset ≤ ·.start)).map fun range =>
      ⟨range.start - offset, range.stop - offset⟩ }

theorem start_lt_size_of_mem_spans {text : Text} {span : Span}
    (member : span ∈ (compute text config).spans) : span.start < text.size := by
  have isRange : span.range ∈ (tiles text config).map Tile.range :=
    (perm_ranges_tiles text config).mem_iff.mpr
      (List.mem_append_left _ (List.mem_map_of_mem member))
  obtain ⟨tile, isTile, same⟩ := List.mem_map.mp isRange
  obtain ⟨_, positive, inside⟩ := (laid_tiles text config).bounds isTile
  rw [same] at positive inside
  exact Nat.lt_of_lt_of_le positive inside

theorem start_lt_size_of_mem_folds {text : Text} {range : ByteRange}
    (member : range ∈ (compute text config).folds) : range.start < text.size := by
  obtain ⟨_, inTokens⟩ : config.folds = true ∧
      range ∈ (text.tokens config.literals).map Token.range := by
    simpa [compute] using member
  obtain ⟨token, isToken, rfl⟩ := List.mem_map.mp inTokens
  exact Nat.lt_of_lt_of_le token.start_lt_stop (Text.stop_le_size isToken)

/-- Seen from where the second of two results begins, only that one is left. -/
theorem since_append {offset : Nat} {front back : Highlights}
    (spansBefore : ∀ span ∈ front.spans, span.start < offset)
    (foldsBefore : ∀ range ∈ front.folds, range.start < offset) :
    (append offset front back).since offset = back := by
  have noSpans : front.spans.filter (offset ≤ ·.start) = [] := by
    apply List.filter_eq_nil_iff.mpr
    intro span member
    have before := spansBefore span member
    simp only [decide_eq_true_eq]
    omega
  have noFolds : front.folds.filter (offset ≤ ·.start) = [] := by
    apply List.filter_eq_nil_iff.mpr
    intro range member
    have before := foldsBefore range member
    simp only [decide_eq_true_eq]
    omega
  have allSpans : (back.spans.map (Span.shift offset)).filter (offset ≤ ·.start) =
      back.spans.map (Span.shift offset) := by
    apply List.filter_eq_self.mpr
    simp [Span.shift]
  have allFolds : (back.folds.map (ByteRange.shift offset)).filter (offset ≤ ·.start) =
      back.folds.map (ByteRange.shift offset) := by
    apply List.filter_eq_self.mpr
    simp [ByteRange.shift]
  unfold since append
  rw [List.filter_append, List.filter_append, noSpans, noFolds, allSpans, allFolds]
  simp [Function.comp_def, Span.shift, ByteRange.shift]

/-- From a reset on, highlighting a text gives what the text from there on gives. -/
theorem since_compute_append (opens : second.OpensWithReset config.literals) :
    (compute (first ++ second) config).since first.size = compute second config := by
  rw [compute_append opens]
  exact since_append (fun _ => start_lt_size_of_mem_spans)
    fun _ => start_lt_size_of_mem_folds

/-- Whatever stands before a text that begins with a reset, its spans and fold ranges
are the same, seen from where it begins. -/
theorem reset_isolates (first other second : Text) (config : HighlightConfig)
    (opens : second.OpensWithReset config.literals) :
    (compute (first ++ second) config).since first.size =
      (compute (other ++ second) config).since other.size := by
  rw [since_compute_append opens, since_compute_append opens]

/-- A text in bold red that ends in an unfinished sequence. -/
def boldRed : Text := ['\x1b', '[', '1', ';', '3', '1', 'm', 'a', '\x1b', '[', '3']

/-- A text that begins with a reset in the middle of a sequence. -/
def underlined : Text := ['\x1b', '[', '3', ';', '0', ';', '4', 'm', 'b']

theorem underlined_opensWithReset : underlined.OpensWithReset true := by
  refine ⟨⟨0, .escape, ['3', ';', '0', ';', '4']⟩, by decide +kernel, rfl, [['0']], ?_, .zero ?_⟩
  · decide +kernel
  · decide

theorem reset_isolates_of_boldRed :
    underlined.OpensWithReset true ∧
      (compute (boldRed ++ underlined) .enabled).since boldRed.size =
        (compute ([] ++ underlined) .enabled).since 0 ∧
      (compute (boldRed ++ underlined) .enabled).since boldRed.size =
        ⟨[⟨8, 9, { Style.plain with underline := true }⟩], [⟨0, 8⟩]⟩ := by
  refine ⟨underlined_opensWithReset,
    reset_isolates boldRed [] underlined .enabled underlined_opensWithReset, ?_⟩
  rw [since_compute_append underlined_opensWithReset]
  decide +kernel

end Highlights

end LogTint
