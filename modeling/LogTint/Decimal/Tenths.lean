/-!
# Numbers with one decimal place

A binary floating-point number is an integer times a power of two, so its
nearest multiple of a tenth can be found in exact integer arithmetic.  Of two
multiples equally near the even one is taken.
-/

namespace LogTint.Decimal

/-- Rounds a quotient to the nearest integer, ties to even. -/
def roundDiv (numerator denominator : Nat) : Nat :=
  let quotient := numerator / denominator
  let twice := 2 * (numerator % denominator)
  if twice < denominator then quotient
  else if denominator < twice then quotient + 1
  else if quotient % 2 = 0 then quotient
  else quotient + 1

/-- The number of tenths nearest to a nonnegative finite number, read from its
64 bits. -/
def tenths (bits : UInt64) : Nat :=
  let leading := 1 <<< 52
  let exponent := (bits.toNat >>> 52) % 2048
  let fraction := bits.toNat % leading
  let mantissa := if exponent = 0 then fraction else fraction + leading
  let scale := max exponent 1
  if 1075 ≤ scale then (mantissa * 10) <<< (scale - 1075)
  else roundDiv (mantissa * 10) (1 <<< (1075 - scale))

/-- A nonnegative finite number with one decimal place. -/
def renderTenths (value : Float) : String :=
  let count := tenths value.toBits
  toString (count / 10) ++ "." ++ toString (count % 10)

end LogTint.Decimal
