import LogTint.Sgr.Category
import LogTint.Sgr.Sequence

/-!
# Scanning a text for sequences

A scanner walks over a text once and yields the sequences it meets, each with
its place and with the text between it and the one before.  A scan may begin
at any byte offset; it then reports the sequences that start there or later.
-/

namespace LogTint

/-- A sequence at its place in a text. -/
structure Token where
  start : Nat
  sequence : Sequence
deriving DecidableEq

namespace Token

def text (token : Token) : Text := token.sequence.render

/-- Offset of the first byte after the token. -/
def stop (token : Token) : Nat := token.start + token.text.size

def range (token : Token) : ByteRange := ⟨token.start, token.stop⟩

def codes (token : Token) : List Code := token.sequence.codes

def categories (token : Token) : List Category := Category.ofCodes token.codes

def hasCategory (token : Token) (category : Category) : Bool :=
  category.occursIn token.codes

end Token

/-- A token with the text between it and the token before it. -/
structure Piece where
  before : Text
  token : Token
deriving DecidableEq

/-- A scan in progress: the text that is left begins at `offset`, and
`position` is what the scan has passed so far. -/
structure Scanner where
  literals : Bool
  position : Nat
  offset : Nat
  rest : Text

namespace Scanner

/-- A scan that reports the tokens that start at or after an offset.  An
offset past the end leaves nothing to report. -/
def startingAt (literals : Bool) (text : Text) (start : Nat) : Scanner :=
  let (offset, rest) := Text.seek start 0 text
  { literals, position := min start text.size, offset, rest }

def ofText (literals : Bool) (text : Text) : Scanner :=
  startingAt literals text 0

/-- The next token, with the text before it, and the scan after it.  When there
is none the scan has passed the whole text. -/
def next (scanner : Scanner) : Option Piece × Scanner :=
  match Sequence.find? scanner.literals scanner.rest with
  | some (before, sequence, after) =>
      let token : Token := ⟨scanner.offset + before.size, sequence⟩
      (some ⟨before, token⟩,
        { scanner with position := token.stop, offset := token.stop, rest := after })
  | none =>
      let stop := scanner.offset + scanner.rest.size
      (none, { scanner with position := stop, offset := stop, rest := [] })

theorem next_rest_length {scanner after : Scanner} {piece : Piece}
    (success : scanner.next = (some piece, after)) :
    after.rest.length < scanner.rest.length := by
  unfold next at success
  split at success
  case h_1 found =>
      simp only [Prod.mk.injEq] at success
      rw [← success.2]
      exact Sequence.find?_length found
  case h_2 => simp at success

/-- What is left of a scan: its tokens in order, each with the text before it,
and the text after the last one. -/
def pieces (scanner : Scanner) : List Piece × Text :=
  match _found : scanner.next with
  | (some piece, after) =>
      let (later, tail) := after.pieces
      (piece :: later, tail)
  | (none, _) => ([], scanner.rest)
termination_by scanner.rest.length
decreasing_by exact next_rest_length _found

/-- The tokens that a scan has yet to report. -/
def tokens (scanner : Scanner) : List Token :=
  scanner.pieces.1.map (·.token)

/-- The positions that a scan goes through: where it is now, after each token,
and at its end. -/
def positions (scanner : Scanner) : List Nat :=
  match _found : scanner.next with
  | (some _, after) => scanner.position :: after.positions
  | (none, after) => [scanner.position, after.position]
termination_by scanner.rest.length
decreasing_by exact next_rest_length _found

end Scanner

namespace Text

def tokens (literals : Bool) (text : Text) : List Token :=
  (Scanner.ofText literals text).tokens

/-- The first token that starts after an offset. -/
def nextTokenAfter? (text : Text) (offset : Nat) : Option Token :=
  (Scanner.startingAt true text (offset + 1)).next.1.map (·.token)

def contains (text part : Text) : Bool :=
  match text with
  | [] => part.isEmpty
  | _ :: rest => part.isPrefixOf text || contains rest part

/-- Whether any escape marker occurs, even one that opens no sequence. -/
def containsMarker (text : Text) : Bool :=
  text.elem '\x1b' || contains text (Marker.literal true).render ||
    contains text (Marker.literal false).render

end Text

end LogTint
