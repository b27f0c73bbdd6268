import LogTint.Proofs.Categories
import LogTint.Proofs.Lookup
import Mathlib.Data.Fintype.Card

/-!
# What the statistics of a text count

The line of a token is counted on the way from token to token, by the line breaks between
them, and only the last line that was counted is remembered.  Still every line on which a
token starts is counted, and each of them once: the numbers of the lines never decrease on
the way.
-/

namespace LogTint

/-! ## The lines of a text -/

/-- The bytes of lines, the first of which begins at an offset.  The line breaks between
them belong to no line. -/
def lineRanges (start : Nat) : List Text → List ByteRange
  | [] => []
  | line :: later => ⟨start, start + line.size⟩ :: lineRanges (start + line.size + 1) later

def Text.lines (text : Text) : List ByteRange := lineRanges 0 (text.splitOn '\n')

section Lines

variable {text before after : Text} {char : Char} {base number : Nat} {lines : List Text}
  {range : ByteRange}

theorem length_lineRanges (base : Nat) (lines : List Text) :
    (lineRanges base lines).length = lines.length := by
  induction lines generalizing base with
  | nil => rfl
  | cons line later induction => rw [lineRanges, List.length_cons, induction, List.length_cons]

theorem length_splitOn_newline (text : Text) :
    (text.splitOn '\n').length = text.count '\n' + 1 := by
  induction text with
  | nil => rfl
  | cons char rest induction =>
      rw [List.splitOn_cons_eq_if_modifyHead, List.count_cons]
      split
      case isTrue same => rw [List.length_cons, induction]
      case isFalse => rw [List.length_modifyHead, induction, Nat.add_zero]

theorem start_of_mem_lineRanges (member : range ∈ lineRanges base lines) :
    base ≤ range.start := by
  induction lines generalizing base with
  | nil => cases member
  | cons line later induction =>
      rcases List.mem_cons.mp member with rfl | inLater
      · exact Nat.le_refl _
      · have further := induction inLater
        omega

theorem slice?_append (front line rest : Text) :
    (front ++ (line ++ rest)).slice? front.size (front.size + line.size) = some line :=
  Text.slice?_eq_some_iff.mpr ⟨front, rest, rfl, rfl, rfl⟩

theorem map_slice_lineRanges (front : Text) (nonempty : lines ≠ []) :
    (lineRanges front.size lines).map
      (fun range => (front ++ List.intercalate ['\n'] lines).slice? range.start range.stop) =
        lines.map some := by
  induction lines generalizing front with
  | nil => exact absurd rfl nonempty
  | cons line later induction =>
      cases later with
      | nil =>
          have alone : List.intercalate ['\n'] [line] = line ++ [] := by simp [List.intercalate]
          rw [alone, lineRanges, List.map_cons, slice?_append]
          rfl
      | cons next later =>
          have joined : List.intercalate ['\n'] (line :: next :: later) =
              line ++ (['\n'] ++ List.intercalate ['\n'] (next :: later)) := by
            simp [List.intercalate]
          have width : (front ++ (line ++ ['\n'])).size = front.size + line.size + 1 := by
            rw [Text.size_append, Text.size_append, Nat.add_assoc]
            rfl
          have further := induction (front ++ (line ++ ['\n'])) (List.cons_ne_nil _ _)
          rw [width, List.append_assoc, List.append_assoc] at further
          rw [joined, lineRanges, List.map_cons, slice?_append, further]
          rfl

/-- The bytes of the lines are the text between the line breaks. -/
theorem Text.map_slice_lines (text : Text) :
    text.lines.map (fun line => text.slice? line.start line.stop) =
      (text.splitOn '\n').map some := by
  have sliced := map_slice_lineRanges [] (List.splitOn_ne_nil '\n' text)
  rwa [List.nil_append, List.intercalate_splitOn] at sliced

theorem splitOn_newline (rest : Text) :
    List.splitOn '\n' ('\n' :: rest) = [] :: rest.splitOn '\n' := by
  rw [List.splitOn_cons_eq_if_modifyHead, if_pos (beq_self_eq_true _)]

/-- A character that is no line break belongs to the line that follows it. -/
theorem exists_splitOn_cons (printable : char ≠ '\n') (rest : Text) :
    ∃ line later, rest.splitOn '\n' = line :: later ∧
      List.splitOn '\n' (char :: rest) = (char :: line) :: later := by
  obtain ⟨line, later, lines⟩ := List.exists_cons_of_ne_nil (List.splitOn_ne_nil '\n' rest)
  refine ⟨line, later, lines, ?_⟩
  rw [List.splitOn_cons_eq_if_modifyHead, if_neg (by simpa using printable), lines,
    List.modifyHead_cons]

/-- A character that is no line break is on the line with as many breaks before it. -/
theorem holds_lineRanges_iff (printable : char ≠ '\n') :
    (∃ range, (lineRanges base ((before ++ char :: after).splitOn '\n'))[number]? = some range ∧
      range.holds (base + before.size) = true) ↔ number = before.count '\n' := by
  induction before generalizing base number with
  | nil =>
      obtain ⟨line, later, _, lines⟩ := exists_splitOn_cons printable after
      have positive := char.utf8Size_pos
      rw [List.nil_append, lines, lineRanges]
      cases number with
      | zero => simp [ByteRange.holds, positive]
      | succ number =>
          refine iff_of_false ?_ (Nat.succ_ne_zero number)
          rintro ⟨range, found, holds⟩
          have further := start_of_mem_lineRanges (List.mem_of_getElem? found)
          have inside := (ByteRange.holds_iff.mp holds).1
          rw [Text.size_nil] at inside
          omega
  | cons first before induction =>
      rw [List.cons_append]
      by_cases breaks : first = '\n'
      · subst breaks
        rw [splitOn_newline, lineRanges, List.count_cons_self]
        cases number with
        | zero =>
            refine iff_of_false ?_ (Nat.succ_ne_zero _).symm
            rintro ⟨range, found, holds⟩
            cases found
            have inside := (ByteRange.holds_iff.mp holds).2
            dsimp only [Text.size_nil] at inside
            omega
        | succ number =>
            have width : '\n'.utf8Size = 1 := rfl
            rw [Nat.succ_inj, ← @induction (base + 1), List.getElem?_cons_succ,
              Text.size_nil, Text.size_cons, width, Nat.add_zero, Nat.add_assoc base]
      · obtain ⟨line, later, lines, longer⟩ := exists_splitOn_cons breaks (before ++ char :: after)
        rw [longer, List.count_cons_of_ne breaks, ← @induction (base + first.utf8Size),
          lines, lineRanges, lineRanges, Text.size_cons, Text.size_cons]
        cases number with
        | zero => simp [ByteRange.holds_iff, Nat.add_assoc]
        | succ number => simp [Nat.add_assoc]

end Lines

/-! ## The lines on which tokens start -/

/-- The number of the line on which each token starts, for tokens behind the first breaks. -/
def lineNumbers (breaks : Nat) : List Piece → List Nat
  | [] => []
  | piece :: later =>
      (breaks + piece.before.count '\n') :: lineNumbers (breaks + piece.before.count '\n') later

theorem length_lineNumbers (breaks : Nat) (pieces : List Piece) :
    (lineNumbers breaks pieces).length = pieces.length := by
  induction pieces generalizing breaks with
  | nil => rfl
  | cons piece later induction =>
      rw [lineNumbers, List.length_cons, induction, List.length_cons]

theorem le_of_mem_lineNumbers {breaks number : Nat} {pieces : List Piece}
    (member : number ∈ lineNumbers breaks pieces) : breaks ≤ number := by
  induction pieces generalizing breaks with
  | nil => cases member
  | cons piece later induction =>
      rcases List.mem_cons.mp member with rfl | inLater
      · exact Nat.le_add_right _ _
      · exact Nat.le_trans (Nat.le_add_right _ _) (induction inLater)

/-- Remembering the last line that was counted is enough to count each line once. -/
theorem counted_foldl_visit (pieces : List Piece) {progress : LineCount}
    (behind : ∀ last, progress.lastCounted = some last → last ≤ progress.line) :
    (pieces.foldl LineCount.visit progress).counted = progress.counted +
      ((lineNumbers progress.line pieces).toFinset.filter
        fun number => progress.lastCounted ≠ some number).card := by
  induction pieces generalizing progress with
  | nil => rfl
  | cons piece later induction =>
      obtain ⟨breaks, lastCounted, counted⟩ := progress
      rw [List.foldl_cons, LineCount.visit, lineNumbers, List.toFinset_cons]
      dsimp only at behind ⊢
      set line := breaks + piece.before.count '\n'
      set others := (lineNumbers line later).toFinset
      by_cases known : lastCounted = some line
      · have here : ∀ last, lastCounted = some last → last ≤ line := fun last same =>
          (Option.some.inj (same.symm.trans known)).le
        rw [if_pos known, induction here, Finset.filter_insert, if_neg (not_not.mpr known)]
      · rw [if_neg known, induction fun last same => (Option.some.inj same).ge]
        -- The lines from here on lie behind the one that was counted last.
        have unseen : ∀ number ∈ insert line others, lastCounted ≠ some number := by
          rintro number member same
          have reached : line ≤ number := by
            rcases Finset.mem_insert.mp member with rfl | inLater
            · exact Nat.le_refl _
            · exact le_of_mem_lineNumbers (List.mem_toFinset.mp inLater)
          have passed := behind number same
          have here : number = line := by omega
          exact known (here ▸ same)
        have rest : others.filter (fun number => some line ≠ some number) =
            (insert line others).erase line := by
          rw [Finset.erase_insert_eq_erase, ← Finset.filter_ne]
          simp
        rw [Finset.filter_true_of_mem unseen, rest,
          ← Finset.card_erase_add_one (Finset.mem_insert_self line others)]
        dsimp only
        omega

theorem Statistics.linesWithCodes_collect (text : Text) :
    (collect text).linesWithCodes =
      (lineNumbers 0 (Scanner.ofText true text).pieces.1).toFinset.card := by
  have counted := @counted_foldl_visit (Scanner.ofText true text).pieces.1 ⟨0, none, 0⟩ nofun
  simpa [collect] using counted

/-- The lines of the tokens are those that hold the starts of tokens. -/
theorem Woven.mem_lineNumbers_iff {literals : Bool} {offset : Nat} {text tail front : Text}
    {pieces : List Piece} (woven : Woven literals offset text pieces tail)
    (behind : offset = front.size) (number : Nat) :
    number ∈ lineNumbers (front.count '\n') pieces ↔ ∃ piece ∈ pieces,
      ∃ range, (front ++ text).lines[number]? = some range ∧
        range.holds piece.token.start = true := by
  induction woven generalizing front with
  | tail => simp [lineNumbers]
  | @piece offset before rest tail sequence later literal admitted _ induction =>
      obtain ⟨head, written, rendered, _⟩ := Sequence.render_eq_cons admitted
      have unbroken := Sequence.newline_notMem_render admitted
      have printable : head ≠ '\n' := by
        rintro rfl
        exact unbroken (by rw [rendered]; exact List.mem_cons_self)
      have here := @holds_lineRanges_iff (front ++ before) (written ++ rest) head 0 number
        printable
      have further := @induction (front ++ (before ++ sequence.render)) (by
        rw [behind, Text.size_append, Text.size_append, Nat.add_assoc])
      rw [Nat.zero_add, Text.size_append, ← behind, List.count_append] at here
      rw [List.count_append, List.count_append, List.count_eq_zero.mpr unbroken, Nat.add_zero,
        List.append_assoc, List.append_assoc] at further
      rw [lineNumbers, List.mem_cons, List.exists_mem_cons_iff, further, ← here, rendered,
        List.append_assoc]
      rfl

/-- The places in a list whose items are admitted are as many as these items. -/
theorem card_eq_countP {α : Type} {items : List α} {admits : α → Bool} {numbers : Finset Nat}
    (places : ∀ number, number ∈ numbers ↔
      ∃ item, items[number]? = some item ∧ admits item = true) :
    numbers.card = items.countP admits := by
  have same : numbers = (Finset.univ.filter fun number : Fin items.length =>
      admits items[number] = true).map Fin.valEmbedding := by
    ext number
    simp [places, Fin.exists_iff, List.getElem?_eq_some_iff]
  rw [same, Finset.card_map, ← List.toFinset_finRange, (List.nodup_finRange _).card_eq_countP]
  conv_rhs => rw [← List.map_getElem_finRange items, List.countP_map]
  simp [Function.comp_def]

/-- The lines that are counted are the lines on which a token starts. -/
theorem Statistics.linesWithCodes_eq_countP (text : Text) :
    (collect text).linesWithCodes = text.lines.countP fun line =>
      (text.tokens true).any fun token => line.holds token.start := by
  rw [linesWithCodes_collect]
  apply card_eq_countP
  intro number
  have numbers := @Woven.mem_lineNumbers_iff true 0 text _ [] _ (text.woven true) rfl number
  rw [List.mem_toFinset]
  refine numbers.trans ⟨?_, ?_⟩
  · rintro ⟨piece, member, line, found, holds⟩
    exact ⟨line, found, List.any_eq_true.mpr ⟨piece.token, List.mem_map_of_mem member, holds⟩⟩
  · rintro ⟨line, found, holds⟩
    obtain ⟨token, isToken, holds⟩ := List.any_eq_true.mp holds
    obtain ⟨piece, member, rfl⟩ := List.mem_map.mp isToken
    exact ⟨piece, member, line, found, holds⟩

/-- A category counts the tokens that have it. -/
theorem Statistics.count_collect (text : Text) (category : Category) :
    (collect text).count category =
      (text.tokens true).countP fun token => token.hasCategory category := by
  have counted : (collect text).count category =
      (Scanner.ofText true text).pieces.1.countP fun piece =>
        piece.token.categories.contains category := by
    cases category <;> rfl
  rw [counted, Text.tokens, Scanner.tokens, List.countP_map]
  congr 1
  funext piece
  exact category.contains_ofCodes piece.token.codes

/-- A text has no more tokens than bytes. -/
theorem Woven.length_le_size {literals : Bool} {offset : Nat} {text tail : Text}
    {pieces : List Piece} (woven : Woven literals offset text pieces tail) :
    pieces.length ≤ text.size := by
  induction woven with
  | tail => exact Nat.zero_le _
  | @piece _ before rest _ sequence later _ _ _ induction =>
      have positive := Text.size_pos sequence.render_ne_nil
      rw [List.length_cons, Text.size_append, Text.size_append]
      omega

/-- The statistics of a text count its tokens, in all and in every category, its lines, the
lines on which a token starts, and its bytes.  So the average number of tokens on the lines
that have any is only taken where there are such lines. -/
theorem Statistics.collect_counts (text : Text) :
    let statistics := collect text
    let tokens := text.tokens true
    text.lines.map (fun line => text.slice? line.start line.stop) =
        (text.splitOn '\n').map some ∧
      statistics.totalCodes = tokens.length ∧
      statistics.totalLines = text.count '\n' + 1 ∧ statistics.totalLines = text.lines.length ∧
      statistics.bytes = text.size ∧
      statistics.linesWithCodes = text.lines.countP (fun line =>
        tokens.any fun token => line.holds token.start) ∧
      (∀ category, statistics.count category =
        tokens.countP fun token => token.hasCategory category) ∧
      statistics.linesWithCodes ≤ statistics.totalLines ∧
      statistics.linesWithCodes ≤ statistics.totalCodes ∧
      (statistics.linesWithCodes = 0 ↔ statistics.totalCodes = 0) ∧
      (text.size < 2 ^ 64 →
        (statistics.linesWithCodes.toUInt64 = 0 ↔ statistics.totalCodes = 0)) ∧
      ∀ category, statistics.count category ≤ statistics.totalCodes := by
  intro statistics tokens
  have total : statistics.totalCodes = tokens.length := by
    simp [statistics, tokens, collect, Text.tokens, Scanner.tokens]
  have onLines : statistics.linesWithCodes = text.lines.countP fun line =>
      tokens.any fun token => line.holds token.start := linesWithCodes_eq_countP text
  have length : statistics.totalLines = text.lines.length := by
    rw [Text.lines, length_lineRanges, length_splitOn_newline]
    rfl
  have numbers : (lineNumbers 0 (Scanner.ofText true text).pieces.1).length =
      statistics.totalCodes := length_lineNumbers 0 _
  have counted := count_collect text
  have below : statistics.linesWithCodes ≤ statistics.totalCodes := by
    rw [← numbers]
    exact (linesWithCodes_collect text).trans_le (List.toFinset_card_le _)
  have zero : statistics.linesWithCodes = 0 ↔ statistics.totalCodes = 0 := by
    rw [← numbers, List.length_eq_zero_iff, ← List.toFinset_eq_empty_iff, ← Finset.card_eq_zero]
    exact Eq.congr_left (linesWithCodes_collect text)
  refine ⟨text.map_slice_lines, total, rfl, length, rfl, onLines, counted, ?_, below, zero, ?_, ?_⟩
  · rw [onLines, length]
    exact List.countP_le_length
  · intro small
    have fits : statistics.totalCodes ≤ text.size := (text.woven true).length_le_size
    have word : statistics.linesWithCodes < UInt64.size := (below.trans fits).trans_lt small
    rw [← zero, Nat.toUInt64_eq, ← UInt64.toNat_inj, UInt64.toNat_ofNat_of_lt' word]
    rfl
  · intro category
    rw [total]
    exact (counted category).trans_le List.countP_le_length

/-- Two tokens on the second of three lines are averaged over this line. -/
theorem Statistics.collect_counts_of_secondLine :
    let statistics := collect "a\n\x1b[1mb\x1b[0m\n".toList
    statistics.totalLines = 3 ∧ statistics.totalCodes = 2 ∧ statistics.linesWithCodes = 1 ∧
      statistics.linesWithCodes.toUInt64 ≠ 0 := by
  intro statistics
  have total : statistics.totalCodes = 2 := by decide +kernel
  obtain ⟨_, _, _, _, _, _, _, _, _, _, word, _⟩ :=
    collect_counts "a\n\x1b[1mb\x1b[0m\n".toList
  refine ⟨by decide +kernel, total, by decide +kernel, fun none => ?_⟩
  have empty : statistics.totalCodes = 0 := (word (by decide +kernel)).mp none
  omega

end LogTint
