import LogTint.Proofs.Scan
import LogTint.Rewrite.Splice

/-!
# Texts woven from literal runs and sequences

A scan takes a text apart into literal runs and the sequences between them.
`Woven` tells the parts as a relation: it asks only that no run holds a
sequence of its own.  Where a run ends and a sequence begins no further
sequence can form, so the parts of a text are determined, and any runs and
sequences may be put together to a text that has just these parts.
-/

namespace LogTint

namespace Text

/-- Whether a text holds no sequence. -/
def IsLiteral (literals : Bool) (text : Text) : Prop :=
  Sequence.find? literals text = none

variable {literals : Bool} {text rest before after : Text} {char : Char}
  {sequence : Sequence}

theorem isLiteral_cons_iff :
    IsLiteral literals (char :: rest) ↔
      Sequence.read? literals (char :: rest) = none ∧ IsLiteral literals rest := by
  unfold IsLiteral
  rw [Sequence.find?]
  split
  case h_1 opened => simp [opened]
  case h_2 closed => simp [closed]

/-- After a run without sequences the next sequence is found at once. -/
theorem find?_append_of_isLiteral (literal : IsLiteral literals before)
    (admitted : sequence.isAdmitted literals = true) (after : Text) :
    Sequence.find? literals (before ++ (sequence.render ++ after)) =
      some (before, sequence, after) := by
  induction before with
  | nil =>
      obtain ⟨head, tail, rendered, _⟩ := Sequence.render_eq_cons admitted
      have opened : Sequence.read? literals (sequence.render ++ after) =
          some (sequence, after) := Sequence.read?_eq_some_iff.mpr ⟨admitted, rfl⟩
      rw [rendered, List.cons_append] at opened
      rw [List.nil_append, rendered, List.cons_append, Sequence.find?, opened]
  | cons char before induction =>
      obtain ⟨closed, literal⟩ := isLiteral_cons_iff.mp literal
      -- A sequence that begins in the run would end in it too.
      have closedLonger :
          Sequence.read? literals (char :: (before ++ (sequence.render ++ after))) = none := by
        apply Option.eq_none_iff_forall_not_mem.mpr
        rintro ⟨first, left⟩ opened
        obtain ⟨firstAdmitted, same⟩ := Sequence.read?_eq_some_iff.mp opened
        have shifted : first.render ++ left =
            (char :: before) ++ (sequence.render ++ after) := same.symm
        rcases Sequence.append_eq_append firstAdmitted admitted shifted with
          ⟨empty, _⟩ | ⟨between, inside, _⟩
        · cases empty
        · have openedBefore := Sequence.read?_eq_some_iff.mpr ⟨firstAdmitted, inside⟩
          cases closed.symm.trans openedBefore
      rw [List.cons_append, Sequence.find?, closedLonger, induction literal]
      rfl

/-- What is before the first sequence that is found holds none. -/
theorem isLiteral_of_find? (found : Sequence.find? literals text = some (before, sequence, after)) :
    IsLiteral literals before ∧ sequence.isAdmitted literals = true ∧
      text = before ++ (sequence.render ++ after) := by
  induction text generalizing before with
  | nil => cases found
  | cons char rest induction =>
      unfold Sequence.find? at found
      split at found
      case h_1 opened =>
        cases found
        obtain ⟨admitted, same⟩ := Sequence.read?_eq_some_iff.mp opened
        exact ⟨rfl, admitted, same⟩
      case h_2 closed =>
        obtain ⟨⟨earlier, other, remaining⟩, foundLater, same⟩ :=
          Option.map_eq_some_iff.mp found
        cases same
        obtain ⟨literal, admitted, rfl⟩ := induction foundLater
        refine ⟨isLiteral_cons_iff.mpr ⟨?_, literal⟩, admitted, rfl⟩
        apply Option.eq_none_iff_forall_not_mem.mpr
        rintro ⟨first, left⟩ opened
        obtain ⟨firstAdmitted, inside⟩ := Sequence.read?_eq_some_iff.mp opened
        have openedLonger : Sequence.read? literals
            (char :: (earlier ++ (sequence.render ++ after))) =
              some (first, left ++ (sequence.render ++ after)) :=
          Sequence.read?_eq_some_iff.mpr ⟨firstAdmitted, by
            rw [← List.cons_append, inside, List.append_assoc]⟩
        cases closed.symm.trans openedLonger

end Text

/-- A text that begins at an offset consists of these pieces and a literal run. -/
inductive Woven (literals : Bool) : Nat → Text → List Piece → Text → Prop where
  | tail {offset : Nat} {tail : Text} (literal : tail.IsLiteral literals) :
      Woven literals offset tail [] tail
  | piece {offset : Nat} {before rest tail : Text} {sequence : Sequence}
      {later : List Piece} (literal : before.IsLiteral literals)
      (admitted : sequence.isAdmitted literals = true)
      (woven : Woven literals (offset + before.size + sequence.render.size) rest later tail) :
      Woven literals offset (before ++ (sequence.render ++ rest))
        (⟨before, ⟨offset + before.size, sequence⟩⟩ :: later) tail

namespace Scanner

theorem woven (scanner : Scanner) :
    Woven scanner.literals scanner.offset scanner.rest scanner.pieces.1
      scanner.pieces.2 := by
  induction scanner using pieces.induct with
  | case1 scanner piece after stepped later tail rest induction =>
      rw [pieces_of_next stepped]
      unfold next at stepped
      split at stepped
      case h_1 found =>
        cases stepped
        obtain ⟨literal, admitted, same⟩ := Text.isLiteral_of_find? found
        rw [same]
        exact .piece literal admitted induction
      case h_2 => cases stepped
  | case2 scanner after stepped =>
      rw [pieces_of_next_none stepped]
      unfold next at stepped
      split at stepped
      case h_1 => cases stepped
      case h_2 missing => exact .tail missing

end Scanner

namespace Woven

variable {literals : Bool} {offset : Nat} {text tail : Text} {pieces : List Piece}

/-- A text is taken apart into the parts that it is woven from. -/
theorem pieces_eq (woven : Woven literals offset text pieces tail) (position : Nat) :
    Scanner.pieces ⟨literals, position, offset, text⟩ = (pieces, tail) := by
  induction woven generalizing position with
  | tail literal =>
      apply Scanner.pieces_of_next_none
      rw [Scanner.next, show Sequence.find? literals _ = none from literal]
  | @piece offset before rest tail sequence later literal admitted _ induction =>
      have stepped : Scanner.next
          ⟨literals, position, offset, before ++ (sequence.render ++ rest)⟩ =
            (some ⟨before, ⟨offset + before.size, sequence⟩⟩,
              ⟨literals, offset + before.size + sequence.render.size,
                offset + before.size + sequence.render.size, rest⟩) := by
        rw [Scanner.next, Text.find?_append_of_isLiteral literal admitted]
        rfl
      rw [Scanner.pieces_of_next stepped, induction]

/-- The parts of a text are determined. -/
theorem eq_pieces (woven : Woven literals 0 text pieces tail) :
    (Scanner.ofText literals text).pieces = (pieces, tail) := by
  have scan := woven.pieces_eq (min 0 text.size)
  simpa [Scanner.ofText, Scanner.startingAt, Text.seek_zero] using scan

end Woven

/-- Every text is woven from its parts. -/
theorem Text.woven (literals : Bool) (text : Text) :
    Woven literals 0 text (Scanner.ofText literals text).pieces.1
      (Scanner.ofText literals text).pieces.2 := by
  have scan := (Scanner.ofText literals text).woven
  rwa [show (Scanner.ofText literals text).literals = literals from rfl,
    show (Scanner.ofText literals text).offset = 0 by
      simp [Scanner.ofText, Scanner.startingAt, Text.seek_zero],
    show (Scanner.ofText literals text).rest = text by
      simp [Scanner.ofText, Scanner.startingAt, Text.seek_zero]] at scan

end LogTint
