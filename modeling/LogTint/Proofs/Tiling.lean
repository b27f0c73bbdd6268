import LogTint.Highlight.Highlights
import LogTint.Proofs.Scan

/-!
# Spans and tokens tile a text

A highlighting pass leaves no byte out and covers none twice: its spans and
the tokens of the text can be laid end to end.  The style of a span is what the
tokens before it have made of the plain style.
-/

namespace LogTint

namespace Text

/-- Whether an offset lies between two characters or at an end of the text. -/
def isBoundary (text : Text) (offset : Nat) : Bool :=
  (dropBytes? offset text).isSome

variable {text : Text} {start stop offset : Nat}

theorem isBoundary_iff :
    text.isBoundary offset = true ↔
      ∃ before after, text = before ++ after ∧ size before = offset := by
  simp only [isBoundary, Option.isSome_iff_exists, dropBytes?_eq_some_iff]
  exact exists_comm

theorem isBoundary_zero (text : Text) : text.isBoundary 0 = true :=
  isBoundary_iff.mpr ⟨[], text, rfl, rfl⟩

theorem isBoundary_size (text : Text) : text.isBoundary text.size = true :=
  isBoundary_iff.mpr ⟨text, [], by simp, rfl⟩

/-- A range can be sliced if its ends are boundaries in the right order. -/
theorem isSome_slice? (ordered : start ≤ stop) (atStart : text.isBoundary start = true)
    (atStop : text.isBoundary stop = true) : (text.slice? start stop).isSome = true := by
  obtain ⟨before, rest, same, length⟩ := isBoundary_iff.mp atStart
  obtain ⟨longer, after, rfl, longerLength⟩ := isBoundary_iff.mp atStop
  apply Option.isSome_iff_exists.mpr
  rcases List.append_eq_append_iff.mp same with ⟨part, rfl, _⟩ | ⟨part, rfl, rfl⟩
  · -- The range is empty.
    rw [size_append] at length
    refine ⟨[], slice?_eq_some_iff.mpr ⟨longer, after, rfl, ?_, ?_⟩⟩
    · omega
    · rw [size_nil]
      omega
  · rw [size_append] at longerLength
    refine ⟨part, slice?_eq_some_iff.mpr ⟨before, after, ?_, length, ?_⟩⟩
    · rw [List.append_assoc]
    · omega

theorem isBoundary_of_mem_tokens {literals : Bool} {token : Token}
    (member : token ∈ text.tokens literals) :
    text.isBoundary token.start = true ∧ text.isBoundary token.stop = true := by
  obtain ⟨_, before, after, same, start⟩ := mem_tokens_iff.mp member
  constructor
  · exact isBoundary_iff.mpr ⟨before, token.text ++ after, same, start.symm⟩
  · refine isBoundary_iff.mpr ⟨before ++ token.text, after, ?_, ?_⟩
    · rw [same, List.append_assoc]
    · rw [size_append, Token.stop, start]

end Text

namespace ByteRange

def holds (range : ByteRange) (offset : Nat) : Bool :=
  range.start ≤ offset && offset < range.stop

end ByteRange

/-- A span or a token, as a part of a text. -/
inductive Tile where
  | ofSpan (span : Span)
  | ofToken (token : Token)

namespace Tile

def range : Tile → ByteRange
  | .ofSpan span => span.range
  | .ofToken token => token.range

def span? : Tile → Option Span
  | .ofSpan span => some span
  | .ofToken _ => none

def token? : Tile → Option Token
  | .ofSpan _ => none
  | .ofToken token => some token

@[simp] theorem range_ofSpan (span : Span) : (ofSpan span).range = span.range := rfl

@[simp] theorem range_ofToken (token : Token) : (ofToken token).range = token.range := rfl

@[simp] theorem span?_ofSpan (span : Span) : (ofSpan span).span? = some span := rfl

@[simp] theorem span?_ofToken (token : Token) : (ofToken token).span? = none := rfl

@[simp] theorem token?_ofSpan (span : Span) : (ofSpan span).token? = none := rfl

@[simp] theorem token?_ofToken (token : Token) : (ofToken token).token? = some token := rfl

end Tile

/-- Tiles that are not empty lie end to end between two offsets. -/
inductive Laid : Nat → List Tile → Nat → Prop where
  | nil (offset : Nat) : Laid offset [] offset
  | cons (tile : Tile) {tiles : List Tile} {stop : Nat} :
      tile.range.start < tile.range.stop → Laid tile.range.stop tiles stop →
      Laid tile.range.start (tile :: tiles) stop

namespace Laid

variable {start middle stop : Nat} {tiles others : List Tile} {tile : Tile}

theorem append (left : Laid start tiles middle) (right : Laid middle others stop) :
    Laid start (tiles ++ others) stop := by
  induction left with
  | nil => exact right
  | cons _ nonempty _ induction => exact .cons _ nonempty (induction right)

theorem le (laid : Laid start tiles stop) : start ≤ stop := by
  induction laid with
  | nil => exact Nat.le_refl _
  | cons _ nonempty _ induction => omega

theorem bounds (laid : Laid start tiles stop) (member : tile ∈ tiles) :
    start ≤ tile.range.start ∧ tile.range.start < tile.range.stop ∧
      tile.range.stop ≤ stop := by
  induction laid with
  | nil => cases member
  | cons _ nonempty later induction =>
      rcases List.mem_cons.mp member with rfl | inLater
      · exact ⟨Nat.le_refl _, nonempty, later.le⟩
      · have inside := induction inLater
        omega

theorem ordered (laid : Laid start tiles stop) :
    tiles.Pairwise fun earlier later => earlier.range.stop ≤ later.range.start := by
  induction laid with
  | nil => exact .nil
  | cons _ _ later induction =>
      exact .cons (fun _ member => (later.bounds member).1) induction

/-- An offset between the ends lies in one tile, any other in none. -/
theorem countP_holds (laid : Laid start tiles stop) (offset : Nat) :
    (tiles.map Tile.range).countP (·.holds offset) =
      if start ≤ offset ∧ offset < stop then 1 else 0 := by
  induction laid with
  | nil => simp
  | cons _ nonempty later induction =>
      have ordered := later.le
      rw [List.map_cons, List.countP_cons, induction]
      simp only [ByteRange.holds, Bool.and_eq_true, decide_eq_true_eq]
      split_ifs <;> omega

end Laid

/-- Tiles are told apart without losing or doubling a range. -/
theorem perm_ranges (tiles : List Tile) :
    (tiles.map Tile.range).Perm ((tiles.filterMap Tile.span?).map Span.range ++
      (tiles.filterMap Tile.token?).map Token.range) := by
  induction tiles with
  | nil => exact .nil
  | cons tile tiles induction =>
      cases tile with
      | ofSpan span => exact induction.cons span.range
      | ofToken token => exact (induction.cons token.range).trans List.perm_middle.symm

/-- The spans and the tokens from an offset on, in the order of their places. -/
def tilesFrom (limit cursor : Nat) (style : Style) : List Token → List Tile
  | [] => (literalRun cursor limit style).map .ofSpan
  | token :: later =>
      (literalRun cursor token.start style).map .ofSpan ++
        .ofToken token :: tilesFrom limit token.stop (style.apply token.codes) later

theorem laid_literalRun {start stop : Nat} (ordered : start ≤ stop) (style : Style) :
    Laid start ((literalRun start stop style).map .ofSpan) stop := by
  unfold literalRun
  split
  case isTrue nonempty =>
      exact .cons (.ofSpan ⟨start, stop, style⟩) nonempty (.nil stop)
  case isFalse empty =>
      rw [Nat.le_antisymm ordered (Nat.not_lt.mp empty)]
      exact .nil stop

theorem filterMap_span?_tilesFrom (limit cursor : Nat) (style : Style)
    (tokens : List Token) :
    (tilesFrom limit cursor style tokens).filterMap Tile.span? =
      spansFrom limit cursor style tokens := by
  induction tokens generalizing cursor style with
  | nil => simp [tilesFrom, spansFrom, Function.comp_def]
  | cons token later induction =>
      rw [tilesFrom, spansFrom, List.filterMap_append, List.filterMap_cons, induction]
      simp [Function.comp_def]

theorem filterMap_token?_tilesFrom (limit cursor : Nat) (style : Style)
    (tokens : List Token) :
    (tilesFrom limit cursor style tokens).filterMap Tile.token? = tokens := by
  induction tokens generalizing cursor style with
  | nil => simp [tilesFrom]
  | cons token later induction => simp [tilesFrom, Function.comp_def, induction]

section Spans

variable {limit cursor : Nat} {style : Style} {tokens : List Token} {span : Span}

/-- Tokens that lie in order leave room for spans between them. -/
theorem laid_tilesFrom (ordered : cursor ≤ limit)
    (inside : ∀ token ∈ tokens, cursor ≤ token.start ∧ token.stop ≤ limit)
    (apart : tokens.Pairwise fun earlier later => earlier.stop ≤ later.start) :
    Laid cursor (tilesFrom limit cursor style tokens) limit := by
  induction tokens generalizing cursor style with
  | nil => exact laid_literalRun ordered style
  | cons token later induction =>
      obtain ⟨bounded, insideLater⟩ := List.forall_mem_cons.mp inside
      obtain ⟨after, apartLater⟩ := List.pairwise_cons.mp apart
      apply (laid_literalRun bounded.1 style).append
      apply Laid.cons (.ofToken token) token.start_lt_stop
      apply induction bounded.2 _ apartLater
      intro other member
      exact ⟨after other member, (insideLater other member).2⟩

theorem mem_literalRun {start stop : Nat} :
    span ∈ literalRun start stop style ↔ start < stop ∧ span = ⟨start, stop, style⟩ := by
  simp [literalRun]

/-- A span reaches from a token or the beginning to a token or the end. -/
theorem ends_of_mem_spansFrom (member : span ∈ spansFrom limit cursor style tokens) :
    (span.start = cursor ∨ ∃ token ∈ tokens, span.start = token.stop) ∧
      (span.stop = limit ∨ ∃ token ∈ tokens, span.stop = token.start) := by
  induction tokens generalizing cursor style with
  | nil =>
      obtain ⟨_, rfl⟩ := mem_literalRun.mp member
      exact ⟨.inl rfl, .inl rfl⟩
  | cons token later induction =>
      rcases List.mem_append.mp member with first | inLater
      · obtain ⟨_, rfl⟩ := mem_literalRun.mp first
        exact ⟨.inl rfl, .inr ⟨token, List.mem_cons_self, rfl⟩⟩
      · obtain ⟨start, stop⟩ := induction inLater
        constructor
        · rcases start with atToken | ⟨other, isLater, same⟩
          · exact .inr ⟨token, List.mem_cons_self, atToken⟩
          · exact .inr ⟨other, List.mem_cons_of_mem _ isLater, same⟩
        · rcases stop with atLimit | ⟨other, isLater, same⟩
          · exact .inl atLimit
          · exact .inr ⟨other, List.mem_cons_of_mem _ isLater, same⟩

/-- The tokens that end before a span have made its style. -/
theorem style_of_mem_spansFrom (member : span ∈ spansFrom limit cursor style tokens)
    (inside : ∀ token ∈ tokens, cursor ≤ token.start)
    (apart : tokens.Pairwise fun earlier later => earlier.stop ≤ later.start) :
    cursor ≤ span.start ∧
      span.style = ((tokens.filter (·.stop ≤ span.start)).map Token.codes).foldl
        Style.apply style := by
  induction tokens generalizing cursor style with
  | nil =>
      obtain ⟨_, rfl⟩ := mem_literalRun.mp member
      simp
  | cons token later induction =>
      obtain ⟨after, apartLater⟩ := List.pairwise_cons.mp apart
      rcases List.mem_append.mp member with first | inLater
      · obtain ⟨_, rfl⟩ := mem_literalRun.mp first
        have none : (token :: later).filter (·.stop ≤ cursor) = [] := by
          apply List.filter_eq_nil_iff.mpr
          intro other isToken
          have starts := inside other isToken
          have positive := other.start_lt_stop
          simp only [decide_eq_true_eq]
          omega
        simp [none]
      · obtain ⟨starts, styled⟩ := induction inLater after apartLater
        have bounded := inside token List.mem_cons_self
        have positive := token.start_lt_stop
        rw [List.filter_cons_of_pos (by simpa using starts), styled]
        exact ⟨by omega, rfl⟩

end Spans

theorem isSome_mapM {α β : Type} {items : List α} {find? : α → Option β}
    (found : ∀ item ∈ items, (find? item).isSome = true) :
    (items.mapM find?).isSome = true := by
  induction items with
  | nil => rfl
  | cons item items induction =>
      obtain ⟨first, later⟩ := List.forall_mem_cons.mp found
      obtain ⟨part, taken⟩ := Option.isSome_iff_exists.mp first
      obtain ⟨parts, takenLater⟩ := Option.isSome_iff_exists.mp (induction later)
      simp [List.mapM_cons, taken, takenLater]

namespace Highlights

section Tiling

variable (text : Text) (config : HighlightConfig)

/-- The tiles that a pass cuts a text into. -/
def tiles : List Tile :=
  tilesFrom text.size 0 Style.plain (text.tokens config.literals)

theorem laid_tiles : Laid 0 (tiles text config) text.size := by
  apply laid_tilesFrom (Nat.zero_le _)
  · exact fun token member => ⟨Nat.zero_le _, Text.stop_le_size member⟩
  · exact text.tokens_pairwise config.literals

theorem filterMap_span?_tiles :
    (tiles text config).filterMap Tile.span? = (compute text config).spans :=
  filterMap_span?_tilesFrom _ _ _ _

theorem filterMap_token?_tiles :
    (tiles text config).filterMap Tile.token? = text.tokens config.literals :=
  filterMap_token?_tilesFrom _ _ _ _

theorem perm_ranges_tiles :
    ((tiles text config).map Tile.range).Perm
      ((compute text config).spans.map Span.range ++
        (text.tokens config.literals).map Token.range) := by
  have ranges := perm_ranges (tiles text config)
  rwa [filterMap_span?_tiles, filterMap_token?_tiles] at ranges

theorem start_lt_stop_of_mem_tiles {range : ByteRange}
    (member : range ∈ (tiles text config).map Tile.range) : range.start < range.stop := by
  obtain ⟨tile, isTile, rfl⟩ := List.mem_map.mp member
  exact ((laid_tiles text config).bounds isTile).2.1

theorem start_lt_stop_of_mem_spans {span : Span}
    (member : span ∈ (compute text config).spans) : span.start < span.stop := by
  have isRange : span.range ∈ (tiles text config).map Tile.range :=
    (perm_ranges_tiles text config).mem_iff.mpr
      (List.mem_append_left _ (List.mem_map_of_mem member))
  exact start_lt_stop_of_mem_tiles text config isRange

theorem spans_pairwise : (compute text config).spans.Pairwise fun earlier later =>
    earlier.stop ≤ later.start := by
  rw [← filterMap_span?_tiles, List.pairwise_filterMap]
  refine (laid_tiles text config).ordered.imp ?_
  rintro (first | first) (second | second) ordered earlier sameFirst later sameSecond
  · cases sameFirst
    cases sameSecond
    exact ordered
  · cases sameSecond
  · cases sameFirst
  · cases sameFirst

theorem isBoundary_of_mem_spans {span : Span} (member : span ∈ (compute text config).spans) :
    text.isBoundary span.start = true ∧ text.isBoundary span.stop = true := by
  obtain ⟨start, stop⟩ := ends_of_mem_spansFrom member
  constructor
  · rcases start with atBeginning | ⟨token, isToken, same⟩
    · rw [atBeginning]
      exact text.isBoundary_zero
    · rw [same]
      exact (Text.isBoundary_of_mem_tokens isToken).2
  · rcases stop with atEnd | ⟨token, isToken, same⟩
    · rw [atEnd]
      exact text.isBoundary_size
    · rw [same]
      exact (Text.isBoundary_of_mem_tokens isToken).1

theorem isSome_text? {span : Span} (member : span ∈ (compute text config).spans) :
    (span.text? text).isSome = true := by
  obtain ⟨atStart, atStop⟩ := isBoundary_of_mem_spans text config member
  apply Text.isSome_slice? _ atStart atStop
  exact Nat.le_of_lt (start_lt_stop_of_mem_spans text config member)

theorem isSome_plainText? : ((compute text config).plainText? text).isSome = true := by
  rw [plainText?, Option.isSome_map]
  exact isSome_mapM fun span member => isSome_text? text config member

end Tiling

/-- A highlighting pass tiles the text and styles every span after the tokens
before it. -/
theorem compute_tiles (text : Text) (config : HighlightConfig) :
    let tokens := text.tokens config.literals
    let highlights := compute text config
    let ranges := highlights.spans.map Span.range ++ tokens.map Token.range
    (∀ offset, ranges.countP (·.holds offset) = if offset < text.size then 1 else 0) ∧
      (∀ range ∈ ranges, range.start < range.stop ∧
        text.isBoundary range.start = true ∧ text.isBoundary range.stop = true) ∧
      highlights.spans.Pairwise (fun earlier later =>
        earlier.start < later.start ∧ earlier.stop ≤ later.start) ∧
      (∃ tiles, Laid 0 tiles text.size ∧ tiles.filterMap Tile.span? = highlights.spans ∧
        tiles.filterMap Tile.token? = tokens) ∧
      (∀ span ∈ highlights.spans, (span.text? text).isSome = true) ∧
      (highlights.plainText? text).isSome = true ∧
      (∀ span ∈ highlights.spans, span.style =
        ((tokens.filter (·.stop ≤ span.start)).map Token.codes).foldl
          Style.apply Style.plain) ∧
      highlights.folds = (if config.folds then tokens.map Token.range else []) ∧
      ∀ folds, (compute text { config with folds }).spans = highlights.spans := by
  intro tokens highlights ranges
  have laid := laid_tiles text config
  have ranged := perm_ranges_tiles text config
  refine ⟨?_, ?_, ?_, ⟨_, laid, filterMap_span?_tiles _ _, filterMap_token?_tiles _ _⟩,
    fun _ => isSome_text? text config, isSome_plainText? text config, ?_, rfl, fun _ => rfl⟩
  · intro offset
    rw [← ranged.countP_eq, laid.countP_holds]
    simp
  · intro range member
    refine ⟨start_lt_stop_of_mem_tiles text config (ranged.mem_iff.mpr member), ?_⟩
    rcases List.mem_append.mp member with inSpans | inTokens
    · obtain ⟨span, isSpan, rfl⟩ := List.mem_map.mp inSpans
      exact isBoundary_of_mem_spans text config isSpan
    · obtain ⟨token, isToken, rfl⟩ := List.mem_map.mp inTokens
      exact Text.isBoundary_of_mem_tokens isToken
  · refine (spans_pairwise text config).imp_of_mem ?_
    intro earlier later isSpan _ ordered
    have positive := start_lt_stop_of_mem_spans text config isSpan
    exact ⟨by omega, ordered⟩
  · intro span member
    exact (style_of_mem_spansFrom member (fun _ _ => Nat.zero_le _)
      (text.tokens_pairwise config.literals)).2

end Highlights

end LogTint
