import LogTint.Proofs.ByteScan
import LogTint.Proofs.Weave
import Mathlib.Data.List.Find

/-!
# Scans that begin in the middle

A scan may begin at any offset: inside a character, inside a sequence or past the end.
It reports the tokens of the whole text that start there or later, and nothing else.
The positions it goes through are the offset it began at, the ends of these tokens and,
from then on, the end of the text.
-/

namespace LogTint

namespace Text

variable {target : Nat}

/-- Seeking passes whole characters, and only while the target is ahead. -/
theorem seek_spec (target base : Nat) (text : Text) :
    ∃ before, text = before ++ (seek target base text).2 ∧
      (seek target base text).1 = base + before.size ∧
      ((seek target base text).2 = [] ∨ target ≤ base + before.size) ∧
      ∀ (front : Text) (char : Char), before = front ++ [char] → base + front.size < target := by
  induction text generalizing base with
  | nil =>
      refine ⟨[], rfl, rfl, .inl rfl, ?_⟩
      intro front char empty
      simp at empty
  | cons char rest induction =>
      rw [seek]
      by_cases reached : target ≤ base
      · rw [if_pos reached]
        refine ⟨[], rfl, rfl, .inr reached, ?_⟩
        intro front last empty
        simp at empty
      · rw [if_neg reached]
        obtain ⟨before, split, place, arrived, ahead⟩ := induction (base + char.utf8Size)
        refine ⟨char :: before, ?_, ?_, ?_, ?_⟩
        · rw [List.cons_append, ← split]
        · rw [place, size_cons, Nat.add_assoc]
        · rwa [size_cons, ← Nat.add_assoc]
        · intro front last same
          cases front with
          | nil =>
              rw [size_nil]
              omega
          | cons first front =>
              obtain ⟨rfl, sameRest⟩ := List.cons.inj same
              rw [size_cons, ← Nat.add_assoc]
              exact ahead front last sameRest

/-- What starts at the target or later lies behind what seeking passes. -/
theorem exists_append_of_seek {text before passed part after : Text}
    (split : text = passed ++ (seek target 0 text).2)
    (ahead : ∀ (front : Text) (char : Char), passed = front ++ [char] → front.size < target)
    (same : text = before ++ (part ++ after)) (late : target ≤ before.size) :
    ∃ between, before = passed ++ between ∧
      (seek target 0 text).2 = between ++ (part ++ after) := by
  rcases List.append_eq_append_iff.mp (split.symm.trans same) with
    ⟨between, long, short⟩ | ⟨between, long, short⟩
  · exact ⟨between, long, short⟩
  · rcases List.eq_nil_or_concat between with rfl | ⟨front, char, rfl⟩
    · exact ⟨[], by simpa using long.symm, by simpa using short.symm⟩
    · -- Seeking would have passed a character behind the target.
      rw [List.concat_eq_append, ← List.append_assoc] at long
      have behind := ahead (before ++ front) char long
      rw [size_append] at behind
      omega

end Text

namespace Scanner

variable {literals : Bool} {text : Text} {offset : Nat}

/-- A scan that begins at an offset has the tokens that start there or later. -/
theorem tokens_startingAt (literals : Bool) (text : Text) (offset : Nat) :
    (startingAt literals text offset).tokens =
      (text.tokens literals).filter (offset ≤ ·.start) := by
  have scan := (startingAt literals text offset).scanned
  obtain ⟨passed, split, place, arrived, ahead⟩ := Text.seek_spec offset 0 text
  rw [Nat.zero_add] at place arrived
  simp only [Nat.zero_add] at ahead
  change Scanned literals (Text.seek offset 0 text).1 (Text.seek offset 0 text).2 _ at scan
  rw [place] at scan
  apply Text.tokens_ext scan.bounds.2 ((text.tokens_pairwise literals).filter _)
  intro token
  rw [scan.mem_iff, List.mem_filter, Text.mem_tokens_iff, decide_eq_true_eq, and_assoc]
  apply and_congr_right
  intro _
  constructor
  · rintro ⟨before, after, same, start⟩
    rcases arrived with atEnd | arrived
    · rw [atEnd] at same
      have empty := List.append_eq_nil_iff.mp same.symm
      exact absurd (List.append_eq_nil_iff.mp empty.2).1 token.sequence.render_ne_nil
    · refine ⟨⟨passed ++ before, after, ?_, ?_⟩, by omega⟩
      · rw [List.append_assoc, ← same, ← split]
      · rw [start, Text.size_append]
  · rintro ⟨⟨before, after, same, start⟩, late⟩
    obtain ⟨between, longer, found⟩ :=
      Text.exists_append_of_seek split ahead same (by omega)
    exact ⟨between, after, found, by rw [start, longer, Text.size_append]⟩

/-- What calls in a row answer, each with the position of the scan after it. -/
def calls : Nat → Scanner → List (Option Token × Nat)
  | 0, _ => []
  | count + 1, scanner =>
      let (piece, after) := scanner.next
      (piece.map (·.token), after.position) :: calls count after

variable {scanner after : Scanner} {piece : Piece}

theorem tokens_of_next (stepped : scanner.next = (some piece, after)) :
    scanner.tokens = piece.token :: after.tokens := by
  rw [tokens, pieces_of_next stepped]
  rfl

theorem tokens_of_next_none (stepped : scanner.next = (none, after)) :
    scanner.tokens = [] := by
  rw [tokens, pieces_of_next_none stepped]
  rfl

theorem position_of_next (stepped : scanner.next = (some piece, after)) :
    after.position = piece.token.stop := by
  unfold next at stepped
  split at stepped
  · cases stepped
    rfl
  · cases stepped

/-- A call answers the first of the tokens that are left. -/
theorem next_token (scanner : Scanner) :
    scanner.next.1.map Piece.token = scanner.tokens.head? := by
  rcases stepped : scanner.next with ⟨piece, after⟩
  cases piece with
  | none =>
      rw [tokens_of_next_none stepped]
      rfl
  | some piece =>
      rw [tokens_of_next stepped]
      rfl

/-- A scan that answers nothing has come to the end, and stays there. -/
theorem ended_of_next_none (stepped : scanner.next = (none, after)) :
    after.position = scanner.offset + scanner.rest.size ∧ after.rest = [] := by
  unfold next at stepped
  split at stepped
  · cases stepped
  · cases stepped
    exact ⟨rfl, rfl⟩

/-- A step leaves the end of what is scanned where it was. -/
theorem next_end (scanner : Scanner) :
    scanner.next.2.offset + scanner.next.2.rest.size = scanner.offset + scanner.rest.size := by
  unfold next
  split
  case h_1 before sequence after found =>
      have same := (Text.isLiteral_of_find? found).2.2
      rw [same, Text.size_append, Text.size_append]
      simp only [Token.stop, Token.text]
      omega
  case h_2 => rfl

/-- Calls answer the tokens that are left one by one, and nothing from then on. -/
theorem calls_eq (count : Nat) (scanner : Scanner) :
    scanner.calls count = (List.range count).map fun place =>
      (scanner.tokens[place]?,
        (scanner.tokens[place]?.map Token.stop).getD (scanner.offset + scanner.rest.size)) := by
  induction count generalizing scanner with
  | zero => rfl
  | succ count induction =>
      have ends := scanner.next_end
      rw [calls, List.range_succ_eq_map, List.map_cons, List.map_map]
      rcases stepped : scanner.next with ⟨piece, after⟩
      rw [stepped] at ends
      dsimp only at ends ⊢
      rw [induction]
      cases piece with
      | none =>
          obtain ⟨position, empty⟩ := ended_of_next_none stepped
          have halted : after.next = (none, after.next.2) := by
            simp [next, empty, Sequence.find?]
          simp [tokens_of_next_none stepped, tokens_of_next_none halted, position, ends,
            Function.comp_def]
      | some piece =>
          simp [tokens_of_next stepped, position_of_next stepped, ends]

end Scanner

namespace ByteScan

variable {scan : ByteScan} {before rest : Text}

/-- A scan that begins inside a character looks at the same candidates as one from the
next character on. -/
theorem candidate_of_inside {char : Char} {position : Nat}
    (split : scan.text = before ++ char :: rest) (behind : before.size < position)
    (within : position ≤ before.size + char.utf8Size) :
    scan.candidate position = scan.candidate (before.size + char.utf8Size) := by
  apply candidate_of_inert_bytes within
  · rw [bytes_of_text split, List.length_append, Text.length_bytes, Text.length_bytes,
      Text.size_cons]
    omega
  · intro byte member
    have dropped := drop_of_text split (position - before.size)
    rw [Nat.add_sub_cancel' (Nat.le_of_lt behind)] at dropped
    have length := String.length_utf8EncodeChar char
    have count : before.size + char.utf8Size - position =
        ((String.utf8EncodeChar char).drop (position - before.size)).length := by
      rw [List.length_drop]
      omega
    rw [dropped, Text.bytes_cons, List.drop_append_of_le_length (by omega), count,
      List.take_left] at member
    -- The character has a second byte, so all its bytes are above the markers.
    have wide : 128 ≤ char.toNat := by
      apply Nat.le_of_not_lt
      intro ascii
      rw [Text.encode_ascii ascii, List.drop_eq_nil_of_le (by simpa using by omega)] at member
      cases member
    exact opens_wide (Text.encode_wide wide byte (List.mem_of_mem_drop member))

/-- A scan of the bytes may begin at any offset too. -/
theorem sequencesFrom_min (literals : Bool) (text : Text) (offset : Nat) :
    sequencesFrom ⟨literals, text⟩ (min offset text.size) =
      .ok (((text.tokens literals).filter (offset ≤ ·.start)).map fun token =>
        (token.range, token.codes)) := by
  have scan := (Scanner.startingAt literals text offset).scanned
  rw [Scanner.tokens_startingAt] at scan
  obtain ⟨passed, split, place, arrived, ahead⟩ := Text.seek_spec offset 0 text
  rw [Nat.zero_add] at place arrived
  simp only [Nat.zero_add] at ahead
  have size := congrArg Text.size split
  rw [Text.size_append] at size
  refine sequencesFrom_of_scanned scan split place ?_
  change candidate _ _ = candidate _ (Text.seek offset 0 text).1
  rw [place]
  have reached : min offset text.size ≤ passed.size := by
    rcases arrived with atEnd | arrived
    · rw [atEnd, Text.size_nil] at size
      omega
    · omega
  rcases List.eq_nil_or_concat passed with rfl | ⟨front, char, rfl⟩
  · rw [Text.size_nil] at reached ⊢
    rw [Nat.le_zero.mp reached]
  · rw [List.concat_eq_append] at *
    have behind := ahead front char rfl
    have length : Text.size (front ++ [char]) = Text.size front + char.utf8Size := by
      rw [Text.size_append]
      rfl
    have positive := char.utf8Size_pos
    rw [length] at reached size ⊢
    apply candidate_of_inside
    · rw [← List.singleton_append, ← List.append_assoc]
      exact split
    · omega
    · exact reached

/-- What calls in a row answer, each with the position of the scan after it. -/
def calls (scan : ByteScan) :
    Nat → Nat → Except ScanFault (List (Option (ByteRange × List Code) × Nat))
  | 0, _ => .ok []
  | count + 1, position => do
      let (found, after) ← scan.next position
      let later ← scan.calls count after
      return (found, after) :: later

section Steps

variable {position place stop : Nat} {codes : List Code}

theorem next_end (found : scan.candidate position = .ok none) :
    scan.next position = .ok (none, scan.bytes.length) := by
  rw [next]
  split <;> simp_all

theorem next_pass (found : scan.candidate position = .ok (some place))
    (unmatched : scan.sequenceAt place = .ok none) :
    scan.next position = scan.next (place + 1) := by
  rw [next]
  split
  case h_3 other foundOther =>
    cases found.symm.trans foundOther
    rw [unmatched]
  case h_1 foundOther | h_2 foundOther => cases found.symm.trans foundOther

theorem next_take (found : scan.candidate position = .ok (some place))
    (matched : scan.sequenceAt place = .ok (some (stop, codes))) :
    scan.next position = .ok (some (⟨place, stop⟩, codes), stop) := by
  rw [next]
  split
  case h_3 other foundOther =>
    cases found.symm.trans foundOther
    rw [matched]
  case h_1 foundOther | h_2 foundOther => cases found.symm.trans foundOther

end Steps

/-- The end of the bytes is passed once and for all. -/
theorem sequencesFrom_length (scan : ByteScan) :
    scan.sequencesFrom scan.bytes.length = .ok [] := by
  have split : scan.text = scan.text ++ [] := (List.append_nil _).symm
  have missing := candidate_eq split
  rw [bytes, Text.length_bytes]
  exact sequencesFrom_end missing

/-- Where a scan is after a call, given the sequences that were left before it. -/
def stopOf (scan : ByteScan) (found : Option (ByteRange × List Code)) : Nat :=
  (found.map (·.1.stop)).getD scan.bytes.length

/-- A call finds the first of the sequences that are left and leaves the others. -/
theorem next_of_sequencesFrom {position : Nat} {sequences : List (ByteRange × List Code)}
    (found : scan.sequencesFrom position = .ok sequences) :
    scan.next position = .ok (sequences.head?, scan.stopOf sequences.head?) ∧
      scan.sequencesFrom (scan.stopOf sequences.head?) = .ok sequences.tail := by
  induction position using sequencesFrom.induct scan with
  | case1 position fault broken =>
      rw [sequencesFrom] at found
      split at found <;> simp_all
  | case2 position missing =>
      cases (sequencesFrom_end missing).symm.trans found
      exact ⟨next_end missing, scan.sequencesFrom_length⟩
  | case3 position place candidate fault broken =>
      rw [sequencesFrom] at found
      split at found
      case h_3 other foundOther =>
        cases candidate.symm.trans foundOther
        split at found <;> simp_all
      case h_1 foundOther | h_2 foundOther => cases candidate.symm.trans foundOther
  | case4 position place candidate unmatched induction =>
      rw [sequencesFrom_pass candidate unmatched] at found
      rw [next_pass candidate unmatched]
      exact induction found
  | case5 position place candidate stop codes matched induction =>
      rw [sequencesFrom_take candidate matched] at found
      cases later : scan.sequencesFrom stop with
      | error fault =>
          rw [later] at found
          cases found
      | ok others =>
          rw [later] at found
          cases found
          exact ⟨next_take candidate matched, later⟩

/-- Calls find the sequences that are left one by one, and nothing from then on. -/
theorem calls_eq {position : Nat} {sequences : List (ByteRange × List Code)} (count : Nat)
    (found : scan.sequencesFrom position = .ok sequences) :
    scan.calls count position = .ok ((List.range count).map fun place =>
      (sequences[place]?, scan.stopOf sequences[place]?)) := by
  induction count generalizing position sequences with
  | zero => rfl
  | succ count induction =>
      obtain ⟨stepped, left⟩ := next_of_sequencesFrom found
      rw [calls, stepped, List.range_succ_eq_map, List.map_cons, List.map_map]
      dsimp only [bind, Except.bind]
      rw [induction left]
      simp [pure, Except.pure, Function.comp_def, List.head?_eq_getElem?]

end ByteScan

namespace Text

/-- The next token of a scan that begins at an offset is the first to start there or
later. -/
theorem next_startingAt (literals : Bool) (text : Text) (offset : Nat) :
    (Scanner.startingAt literals text offset).next.1.map Piece.token =
      (text.tokens literals).find? (offset ≤ ·.start) := by
  rw [Scanner.next_token, Scanner.tokens_startingAt, List.head?_filter]

/-- A scan that begins at an offset is the scan of the whole text without the tokens
that start before: call by call, with the positions it goes through, on the characters
as on the bytes.  An offset that is cut down to a bound past the end of the text is as
good as the offset itself. -/
theorem restarts_by_filtering (literals : Bool) (text : Text) (offset : Nat) :
    let scanner := Scanner.startingAt literals text offset
    let reported := (text.tokens literals).filter (offset ≤ ·.start)
    let stopOf (found : Option Token) := (found.map Token.stop).getD text.size
    scanner.tokens = reported ∧
    scanner.position = min offset text.size ∧
    (∀ count, scanner.calls count = (List.range count).map fun place =>
      (reported[place]?, stopOf reported[place]?)) ∧
    (∀ count, ByteScan.calls ⟨literals, text⟩ count (min offset text.size) =
      .ok ((List.range count).map fun place =>
        (reported[place]?.map fun token => (token.range, token.codes),
          stopOf reported[place]?))) ∧
    text.nextTokenAfter? offset = (text.tokens true).find? (offset < ·.start) ∧
    ∀ room, (Scanner.startingAt true text (min (offset + 1) (text.size + room))).next.1.map
      Piece.token = text.nextTokenAfter? offset := by
  intro scanner reported stopOf
  have tokens : scanner.tokens = reported := Scanner.tokens_startingAt literals text offset
  have next : text.nextTokenAfter? offset = (text.tokens true).find? (offset < ·.start) :=
    next_startingAt true text (offset + 1)
  refine ⟨tokens, rfl, ?_, ?_, next, ?_⟩
  · intro count
    rw [scanner.calls_eq, tokens]
    have ends : scanner.offset + scanner.rest.size = text.size := by
      obtain ⟨passed, split, place, -⟩ := seek_spec offset 0 text
      have size := congrArg size split
      rw [size_append] at size
      change (seek offset 0 text).1 + Text.size (seek offset 0 text).2 = _
      omega
    rw [ends]
  · intro count
    rw [ByteScan.calls_eq count (ByteScan.sequencesFrom_min literals text offset)]
    simp only [ByteScan.stopOf, List.getElem?_map, Option.map_map, ByteScan.bytes, length_bytes]
    rfl
  · intro room
    rw [next_startingAt, next]
    apply List.find?_congr
    intro token member
    have inside := stop_le_size member
    have positive := token.start_lt_stop
    apply decide_eq_decide.mpr
    omega

end Text

end LogTint
