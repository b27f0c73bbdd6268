import LogTint.Sgr.Code

/-!
# Escape sequences

A sequence is an escape marker, an opening bracket, a run of digits and
semicolons, and the letter `m`.  The marker is the escape character or, where
texts spell control characters out, a backslash with the code point in
hexadecimal: `u001B`, the `B` in either case.  `render` writes a sequence as it
was read, so nothing of the text is lost in one.
-/

namespace LogTint

/-- The two ways to write the character that opens a sequence. -/
inductive Marker where
  | escape
  | literal (capital : Bool)
deriving DecidableEq

namespace Marker

def render : Marker → Text
  | .escape => ['\x1b']
  | .literal true => ['\\', 'u', '0', '0', '1', 'B']
  | .literal false => ['\\', 'u', '0', '0', '1', 'b']

/-- The marker at the head of a text and what follows it.  Spelled-out markers
count only where literal markers are recognized. -/
def read? (literals : Bool) : Text → Option (Marker × Text)
  | '\x1b' :: rest => some (.escape, rest)
  | '\\' :: 'u' :: '0' :: '0' :: '1' :: 'B' :: rest =>
      if literals then some (.literal true, rest) else none
  | '\\' :: 'u' :: '0' :: '0' :: '1' :: 'b' :: rest =>
      if literals then some (.literal false, rest) else none
  | _ => none

end Marker

/-- An escape sequence that selects how text is rendered. -/
structure Sequence where
  marker : Marker
  parameters : Text
deriving DecidableEq

namespace Sequence

/-- The characters that may stand between the bracket and the final letter. -/
def isParameter (char : Char) : Bool := char.isDigit || char = ';'

def render (sequence : Sequence) : Text :=
  sequence.marker.render ++ '[' :: sequence.parameters ++ ['m']

/-- The codes of a sequence; there is always at least one. -/
def codes (sequence : Sequence) : List Code := Code.split sequence.parameters

/-- The body of a sequence after its marker: the parameters and what follows
the final letter. -/
def readBody? : Text → Option (Text × Text)
  | '[' :: rest =>
      match rest.dropWhile isParameter with
      | 'm' :: after => some (rest.takeWhile isParameter, after)
      | _ => none
  | _ => none

/-- The sequence at the head of a text and what follows it. -/
def read? (literals : Bool) (text : Text) : Option (Sequence × Text) :=
  (Marker.read? literals text).bind fun (marker, rest) =>
    (readBody? rest).map fun (parameters, after) => (⟨marker, parameters⟩, after)

/-- The first sequence of a text, with the text before it and after it.  A
marker that opens no sequence is text like any other. -/
def find? (literals : Bool) : Text → Option (Text × Sequence × Text)
  | [] => none
  | char :: rest =>
      match read? literals (char :: rest) with
      | some (sequence, after) => some ([], sequence, after)
      | none =>
          (find? literals rest).map fun (before, sequence, after) =>
            (char :: before, sequence, after)

theorem readBody?_length {text parameters after : Text}
    (success : readBody? text = some (parameters, after)) :
    after.length < text.length := by
  unfold readBody? at success
  split at success
  case h_1 rest =>
      split at success
      case h_1 found dropped =>
          simp only [Option.some.injEq, Prod.mk.injEq] at success
          have shorter := (List.dropWhile_sublist (p := isParameter)
            (l := rest)).length_le
          simp only [dropped, List.length_cons] at shorter
          rw [← success.2]
          simp only [List.length_cons]
          omega
      case h_2 => simp at success
  case h_2 => simp at success

theorem read?_length {literals : Bool} {text after : Text}
    {sequence : Sequence}
    (success : read? literals text = some (sequence, after)) :
    after.length < text.length := by
  simp only [read?, Option.bind_eq_some_iff, Option.map_eq_some_iff] at success
  obtain ⟨⟨marker, rest⟩, opened, ⟨parameters, final⟩, body, same⟩ := success
  simp only [Prod.mk.injEq] at same
  have bodyShorter : final.length < rest.length := readBody?_length body
  have markerShorter : rest.length < text.length := by
    unfold Marker.read? at opened
    split at opened <;> simp_all <;> omega
  rw [← same.2]
  omega

/-- The text after the first sequence is shorter than the text searched. -/
theorem find?_length {literals : Bool} {text before after : Text}
    {sequence : Sequence}
    (success : find? literals text = some (before, sequence, after)) :
    after.length < text.length := by
  induction text generalizing before sequence after with
  | nil => simp [find?] at success
  | cons char rest induction =>
      unfold find? at success
      split at success
      case h_1 found remaining opened =>
          simp only [Option.some.injEq, Prod.mk.injEq] at success
          rw [← success.2.2]
          exact read?_length opened
      case h_2 =>
          simp only [Option.map_eq_some_iff] at success
          obtain ⟨⟨earlier, found, remaining⟩, later, same⟩ := success
          simp only [Prod.mk.injEq] at same
          have shorter := induction later
          rw [← same.2.2, List.length_cons]
          omega

end Sequence

end LogTint
