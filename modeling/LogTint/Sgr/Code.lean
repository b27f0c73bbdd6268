import LogTint.Text.Offset

/-!
# Parameters of a sequence

A code is one of the parameters that a sequence lists between its bracket and
its final letter.  Only a nonempty run of ASCII digits has a value.  Values
stop growing at the largest 64-bit number; no rule tells numbers of that size
apart.
-/

namespace LogTint

/-- One parameter of a sequence, as written. -/
abbrev Code := List Char

namespace Code

/-- The largest value a code can have. -/
def valueLimit : Nat := 0xFFFFFFFFFFFFFFFF

/-- The number that a run of decimal digits denotes. -/
def decimal (digits : List Char) : Nat :=
  digits.foldl (fun value digit => 10 * value + (digit.toNat - '0'.toNat)) 0

/-- The value of a code, if it is a nonempty run of ASCII digits. -/
def value? (code : Code) : Option Nat :=
  if !code.isEmpty && code.all Char.isDigit then
    some (min (decimal code) valueLimit)
  else none

@[simp] theorem value?_nil : value? [] = none := rfl

/-- The codes written one after the other with semicolons between them. -/
def join (codes : List Code) : Text := List.intercalate [';'] codes

/-- The codes of a run of digits and semicolons; the empty run is one empty
code. -/
def split (parameters : Text) : List Code := parameters.splitOn ';'

end Code

/-- Brings a number into the range of a byte. -/
def clampByte (value : Nat) : UInt8 := UInt8.ofNat (min value 255)

end LogTint
