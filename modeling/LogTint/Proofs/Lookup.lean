import LogTint.Proofs.Tiling

/-!
# What lies at an offset

Spans and fold ranges are looked up by halving the list of them.  What is found is
what holds the offset, because they lie in order: a span unless a sequence holds it.
-/

namespace LogTint

section Partition

variable {α : Type} {early : α → Bool} {items : List α} {low high : Nat}

/-- The interval of indices outside of which a predicate is known: it holds before the
interval and fails after it. -/
structure Narrowed (early : α → Bool) (items : List α) (low high : Nat) : Prop where
  ordered : low ≤ high
  bounded : high ≤ items.length
  before : ∀ place item, items[place]? = some item → place < low → early item = true
  after : ∀ place item, items[place]? = some item → high ≤ place → early item = false

/-- Halving an interval leaves one index. -/
theorem narrowed_partitionWithin (narrowed : Narrowed early items low high)
    (sorted : ∀ (place later : Nat) (item other : α), items[place]? = some item →
      items[later]? = some other → place ≤ later → early other = true →
        early item = true) :
    Narrowed early items (partitionWithin early items low high)
      (partitionWithin early items low high) := by
  induction low, high using partitionWithin.induct early items with
  | case1 low high less middle missing induction =>
      have bounded := narrowed.bounded
      have inside : middle < items.length := by omega
      rw [List.getElem?_eq_getElem inside] at missing
      cases missing
  | case2 low high less middle item found isEarly induction =>
      rw [partitionWithin, if_pos less]
      simp only [show (low + high) / 2 = middle from rfl, found, isEarly, if_true]
      apply induction
      refine ⟨by omega, narrowed.bounded, ?_, narrowed.after⟩
      intro place other foundOther below
      exact sorted place middle other item foundOther found (by omega) isEarly
  | case3 low high less middle item found isLate induction =>
      rw [partitionWithin, if_pos less]
      simp only [show (low + high) / 2 = middle from rfl, found, isLate]
      apply induction
      have bounded := narrowed.bounded
      refine ⟨by omega, by omega, narrowed.before, ?_⟩
      intro place other foundOther above
      apply Bool.eq_false_iff.mpr
      intro isEarly
      exact isLate (sorted middle place item other found foundOther above isEarly)
  | case4 low high done =>
      rw [partitionWithin, if_neg done]
      have same : low = high := Nat.le_antisymm narrowed.ordered (Nat.not_lt.mp done)
      exact ⟨Nat.le_refl _, same ▸ narrowed.bounded, narrowed.before, same ▸ narrowed.after⟩

/-- At the partition point stands the first item at which the predicate fails. -/
theorem getElem?_partitionPoint
    (sorted : items.Pairwise fun item later => early later = true → early item = true) :
    items[partitionPoint early items]? = items.find? fun item => !early item := by
  have narrowed : Narrowed early items (partitionPoint early items)
      (partitionPoint early items) := by
    apply narrowed_partitionWithin
    · refine ⟨Nat.zero_le _, Nat.le_refl _, ?_, ?_⟩
      · intro place _ _ below
        cases below
      · intro place item found above
        rw [List.getElem?_eq_none above] at found
        cases found
    · intro place later item other found foundOther ordered isEarly
      obtain ⟨inside, rfl⟩ := List.getElem?_eq_some_iff.mp found
      obtain ⟨insideLater, rfl⟩ := List.getElem?_eq_some_iff.mp foundOther
      rcases Nat.lt_or_eq_of_le ordered with less | rfl
      · exact List.pairwise_iff_getElem.mp sorted place later inside insideLater less isEarly
      · exact isEarly
  cases found : items[partitionPoint early items]? with
  | none =>
      apply Eq.symm
      apply List.find?_eq_none.mpr
      intro item member
      obtain ⟨place, inside, rfl⟩ := List.mem_iff_getElem.mp member
      have past := List.getElem?_eq_none_iff.mp found
      have isEarly := narrowed.before place _ (List.getElem?_eq_getElem inside) (by omega)
      simp [isEarly]
  | some item =>
      apply Eq.symm
      apply List.find?_eq_some_iff_getElem.mpr
      obtain ⟨inside, same⟩ := List.getElem?_eq_some_iff.mp found
      have isLate := narrowed.after _ item found (Nat.le_refl _)
      refine ⟨by simp [isLate], _, inside, same, ?_⟩
      intro place below
      have isEarly := narrowed.before place _ (List.getElem?_eq_getElem (by omega)) below
      simp [isEarly]

end Partition

theorem ByteRange.holds_iff {range : ByteRange} {offset : Nat} :
    range.holds offset = true ↔ range.start ≤ offset ∧ offset < range.stop := by
  simp [holds]

/-- Ranges that lie in order are looked up by halving. -/
theorem find?_holds {α : Type} (items : List α) (range : α → ByteRange) (offset : Nat)
    (positive : ∀ item ∈ items, (range item).start < (range item).stop)
    (ordered : items.Pairwise fun earlier later =>
      (range earlier).stop ≤ (range later).start) :
    (items[partitionPoint (fun item => decide ((range item).stop ≤ offset)) items]?.filter
        fun item => decide ((range item).start ≤ offset)) =
      items.find? fun item => (range item).holds offset := by
  have sorted : items.Pairwise fun item later =>
      decide ((range later).stop ≤ offset) = true →
        decide ((range item).stop ≤ offset) = true := by
    apply ordered.imp_of_mem
    intro item later _ isLater apart
    have laterPositive := positive later isLater
    simp only [decide_eq_true_eq]
    omega
  rw [getElem?_partitionPoint sorted]
  clear sorted
  induction items with
  | nil => rfl
  | cons item later induction =>
      obtain ⟨itemPositive, laterPositive⟩ := List.forall_mem_cons.mp positive
      obtain ⟨apart, laterOrdered⟩ := List.pairwise_cons.mp ordered
      by_cases passed : (range item).stop ≤ offset
      · have missed : (range item).holds offset = false := by
          rw [← Bool.not_eq_true, ByteRange.holds_iff]
          omega
        rw [List.find?_cons_of_neg (by simpa using passed),
          List.find?_cons_of_neg (by simp [missed])]
        exact induction laterPositive laterOrdered
      · rw [List.find?_cons_of_pos (by simpa using passed)]
        by_cases started : (range item).start ≤ offset
        · have holds : (range item).holds offset = true := by
            rw [ByteRange.holds_iff]
            omega
          rw [Option.filter_some, if_pos (by simpa using started)]
          apply Eq.symm
          apply List.find?_cons_of_pos
          exact holds
        · -- The item begins after the offset, and so do all later ones.
          have none : (item :: later).find? (fun item => (range item).holds offset) = none := by
            apply List.find?_eq_none.mpr
            intro other member
            rw [ByteRange.holds_iff]
            rcases List.mem_cons.mp member with rfl | inLater
            · omega
            · have begins := apart other inLater
              omega
          rw [none, Option.filter_some, if_neg (by simpa using started)]

/-- Of ranges that lie in order, the one that holds an offset is found there. -/
theorem find?_holds_eq_some_iff {α : Type} {items : List α} (range : α → ByteRange)
    (offset : Nat) (item : α)
    (ordered : items.Pairwise fun earlier later =>
      (range earlier).stop ≤ (range later).start) :
    items.find? (fun item => (range item).holds offset) = some item ↔
      item ∈ items ∧ (range item).holds offset = true := by
  constructor
  · intro found
    exact ⟨List.mem_of_find?_eq_some found, by simpa using List.find?_some found⟩
  rintro ⟨member, holds⟩
  induction items with
  | nil => cases member
  | cons first later induction =>
      obtain ⟨apart, laterOrdered⟩ := List.pairwise_cons.mp ordered
      rcases List.mem_cons.mp member with rfl | inLater
      · apply List.find?_cons_of_pos
        exact holds
      · have missed : (range first).holds offset = false := by
          have begins := (ByteRange.holds_iff.mp holds).1
          have ends := apart item inLater
          rw [← Bool.not_eq_true, ByteRange.holds_iff]
          omega
        rw [List.find?_cons_of_neg (by simp [missed])]
        exact induction laterOrdered inLater

namespace Highlights

variable (text : Text) (config : HighlightConfig) (offset : Nat)

theorem folds_pairwise : (compute text config).folds.Pairwise fun earlier later =>
    earlier.stop ≤ later.start := by
  cases folds : config.folds with
  | false => simp [compute, folds]
  | true =>
      simpa [compute, folds] using
        List.pairwise_map.mpr (text.tokens_pairwise config.literals)

theorem start_lt_stop_of_mem_folds {range : ByteRange}
    (member : range ∈ (compute text config).folds) : range.start < range.stop := by
  cases folds : config.folds with
  | false => simp [compute, folds] at member
  | true =>
      simp only [compute, folds, if_true] at member
      obtain ⟨token, _, rfl⟩ := List.mem_map.mp member
      exact token.start_lt_stop

/-- Looking up a style is finding the span that holds the offset. -/
theorem styleAt?_eq_find? : (compute text config).styleAt? offset =
    ((compute text config).spans.find? (·.range.holds offset)).map (·.style) :=
  congrArg (Option.map Span.style) (find?_holds (compute text config).spans Span.range offset
    (fun _ => start_lt_stop_of_mem_spans text config) (spans_pairwise text config))

/-- Looking up a fold range is finding the one that holds the offset. -/
theorem foldAt?_eq_find? : (compute text config).foldAt? offset =
    (compute text config).folds.find? (·.holds offset) :=
  find?_holds (compute text config).folds id offset
    (fun _ => start_lt_stop_of_mem_folds text config) (folds_pairwise text config)

theorem foldAt?_compute :
    (compute text config).foldAt? offset =
      if config.folds then
        ((text.tokens config.literals).find? (·.range.holds offset)).map Token.range
      else none := by
  rw [foldAt?_eq_find?]
  cases folds : config.folds with
  | false => simp [compute, folds]
  | true =>
      have same : (compute text config).folds =
          (text.tokens config.literals).map Token.range := by
        simp [compute, folds]
      rw [same, List.find?_map, if_pos rfl]
      rfl

/-- An offset inside the text lies in one span or in one token. -/
theorem countP_spans_add_countP_tokens :
    (compute text config).spans.countP (·.range.holds offset) +
      (text.tokens config.literals).countP (·.range.holds offset) =
        if offset < text.size then 1 else 0 := by
  have ranges := (perm_ranges_tiles text config).countP_eq (·.holds offset)
  rw [(laid_tiles text config).countP_holds, List.countP_append, List.countP_map,
    List.countP_map] at ranges
  simpa [Function.comp_def] using ranges.symm

/-- The style that the tokens of a text have made by the time an offset is reached. -/
def styleBefore (tokens : List Token) (offset : Nat) : Style :=
  ((tokens.filter (·.stop ≤ offset)).map Token.codes).foldl Style.apply Style.plain

variable {text config offset} in
/-- A token that ends inside a span or before it ends before the span. -/
theorem stop_le_start_iff {span : Span} {token : Token}
    (isSpan : span ∈ (compute text config).spans)
    (isToken : token ∈ text.tokens config.literals)
    (holds : span.range.holds offset = true) :
    token.stop ≤ span.start ↔ token.stop ≤ offset := by
  obtain ⟨starts, stops⟩ := ByteRange.holds_iff.mp holds
  change span.start ≤ offset at starts
  change offset < span.stop at stops
  constructor
  · intro early
    omega
  · intro early
    by_contra inside
    -- The last byte of the token would lie in the span too.
    have positive := token.start_lt_stop
    have inSpan : 0 < (compute text config).spans.countP (·.range.holds (token.stop - 1)) := by
      apply List.countP_pos_iff.mpr
      refine ⟨span, isSpan, ByteRange.holds_iff.mpr ?_⟩
      show span.start ≤ _ ∧ _ < span.stop
      omega
    have inToken : 0 < (text.tokens config.literals).countP
        (·.range.holds (token.stop - 1)) := by
      apply List.countP_pos_iff.mpr
      refine ⟨token, isToken, ByteRange.holds_iff.mpr ?_⟩
      show token.start ≤ _ ∧ _ < token.stop
      omega
    have once := countP_spans_add_countP_tokens text config (token.stop - 1)
    split at once <;> omega

/-- The style at an offset is that of the tokens before it, unless a token holds it. -/
theorem styleAt?_compute :
    (compute text config).styleAt? offset =
      if offset < text.size ∧
          ∀ token ∈ text.tokens config.literals, token.range.holds offset = false then
        some (styleBefore (text.tokens config.literals) offset)
      else none := by
  have once := countP_spans_add_countP_tokens text config offset
  rw [styleAt?_eq_find?]
  cases found : (compute text config).spans.find? (·.range.holds offset) with
  | none =>
      have absent : (compute text config).spans.countP (·.range.holds offset) = 0 :=
        List.countP_eq_zero.mpr (List.find?_eq_none.mp found)
      apply Eq.symm
      apply if_neg
      rintro ⟨inside, free⟩
      have noToken : (text.tokens config.literals).countP (·.range.holds offset) = 0 := by
        apply List.countP_eq_zero.mpr
        intro token member
        simp [free token member]
      rw [absent, noToken, if_pos inside] at once
      omega
  | some span =>
      have isSpan := List.mem_of_find?_eq_some found
      have holds : span.range.holds offset = true := by
        simpa using List.find?_some found
      have present : 0 < (compute text config).spans.countP (·.range.holds offset) :=
        List.countP_pos_iff.mpr ⟨span, isSpan, holds⟩
      have inside : offset < text.size := by
        by_contra outside
        rw [if_neg outside] at once
        omega
      have free : (text.tokens config.literals).countP (·.range.holds offset) = 0 := by
        rw [if_pos inside] at once
        omega
      rw [if_pos]
      · have styled := (style_of_mem_spansFrom isSpan (fun _ _ => Nat.zero_le _)
          (text.tokens_pairwise config.literals)).2
        rw [Option.map_some, styled, styleBefore]
        congr 3
        apply List.filter_congr
        intro token isToken
        exact decide_eq_decide.mpr (stop_le_start_iff isSpan isToken holds)
      · refine ⟨inside, ?_⟩
        intro token member
        simpa using List.countP_eq_zero.mp free token member

theorem styleAt?_eq_some_iff (style : Style) :
    (compute text config).styleAt? offset = some style ↔
      ∃ span ∈ (compute text config).spans,
        span.range.holds offset = true ∧ span.style = style := by
  have held (span : Span) :=
    find?_holds_eq_some_iff Span.range offset span (spans_pairwise text config)
  simp only [styleAt?_eq_find?, Option.map_eq_some_iff, held, and_assoc]

theorem foldAt?_eq_some_iff (range : ByteRange) :
    (compute text config).foldAt? offset = some range ↔
      range ∈ (compute text config).folds ∧ range.holds offset = true := by
  rw [foldAt?_eq_find?]
  exact find?_holds_eq_some_iff id offset range (folds_pairwise text config)

theorem isSome_styleAt?_iff :
    ((compute text config).styleAt? offset).isSome = true ↔
      0 < (compute text config).spans.countP (·.range.holds offset) := by
  rw [styleAt?_eq_find?, Option.isSome_map, List.find?_isSome, List.countP_pos_iff]

theorem isSome_foldAt?_iff :
    ((compute text config).foldAt? offset).isSome = true ↔
      config.folds = true ∧ 0 < (text.tokens config.literals).countP (·.range.holds offset) := by
  rw [foldAt?_compute, List.countP_pos_iff]
  cases config.folds with
  | false => simp
  | true => simp

/-- What is looked up at an offset is what holds it.  A style that is found is what the
tokens up to the offset have made. -/
theorem lookups_exact (text : Text) (config : HighlightConfig) (offset : Nat) :
    let highlights := compute text config
    (∀ style, highlights.styleAt? offset = some style ↔
      ∃ span ∈ highlights.spans, span.range.holds offset = true ∧ span.style = style) ∧
    (∀ range, highlights.foldAt? offset = some range ↔
      range ∈ highlights.folds ∧ range.holds offset = true) ∧
    (config.folds = true → offset < text.size →
      (highlights.styleAt? offset).isSome = !(highlights.foldAt? offset).isSome) ∧
    (text.size ≤ offset →
      highlights.styleAt? offset = none ∧ highlights.foldAt? offset = none) ∧
    (∀ style, highlights.styleAt? offset = some style →
      style = styleBefore (text.tokens config.literals) offset) := by
  intro highlights
  have once := countP_spans_add_countP_tokens text config offset
  have styled := isSome_styleAt?_iff text config offset
  have folded := isSome_foldAt?_iff text config offset
  refine ⟨styleAt?_eq_some_iff text config offset, foldAt?_eq_some_iff text config offset,
    ?_, ?_, ?_⟩
  · intro folds inside
    rw [if_pos inside] at once
    rw [Bool.eq_not, Ne, Bool.eq_iff_iff, styled, folded]
    simp only [folds, true_and]
    omega
  · intro outside
    rw [if_neg (by omega)] at once
    constructor
    · apply Option.not_isSome_iff_eq_none.mp
      rw [styled]
      omega
    · apply Option.not_isSome_iff_eq_none.mp
      rw [folded]
      omega
  · intro style found
    change (compute text config).styleAt? offset = some style at found
    rw [styleAt?_compute] at found
    split at found
    · exact (Option.some.inj found).symm
    · cases found

/-- A letter in bold, with the sequence that makes it so. -/
def boldLetter : Text := ['\x1b', '[', '1', 'm', 'a']

theorem lookups_exact_of_boldLetter :
    let highlights := compute boldLetter .enabled
    (highlights.styleAt? 4).isSome = !(highlights.foldAt? 4).isSome ∧
      highlights.styleAt? 4 = some { Style.plain with bold := true } ∧
      highlights.foldAt? 3 = some ⟨0, 4⟩ ∧
      highlights.styleAt? 5 = none ∧ highlights.foldAt? 5 = none := by
  intro highlights
  obtain ⟨styled, -, only, -, -⟩ := lookups_exact boldLetter .enabled 4
  obtain ⟨-, folded, -, -, -⟩ := lookups_exact boldLetter .enabled 3
  obtain ⟨-, -, -, past, -⟩ := lookups_exact boldLetter .enabled 5
  refine ⟨only rfl (by decide), (styled _).mpr ?_, (folded _).mpr ?_, past (by decide)⟩
  · decide +kernel
  · decide +kernel

end Highlights

end LogTint
