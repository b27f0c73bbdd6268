/-!
# Spans of time for readers

A span of whole milliseconds is written in seconds when it has any, with no
more decimals than it needs, and otherwise in milliseconds.
-/

namespace LogTint.Duration

/-- The decimals of a number of thousandths, without zeros at the end. -/
def thousandths (count : Nat) : String :=
  let digits := Nat.toDigits 10 count
  let padded := List.replicate (3 - digits.length) '0' ++ digits
  String.ofList (padded.reverse.dropWhile (· = '0')).reverse

/-- A span of time given in milliseconds. -/
def render (milliseconds : Nat) : String :=
  if milliseconds = 0 then "0ns"
  else if milliseconds < 1000 then toString milliseconds ++ "ms"
  else if milliseconds % 1000 = 0 then toString (milliseconds / 1000) ++ "s"
  else
    toString (milliseconds / 1000) ++ "." ++ thousandths (milliseconds % 1000) ++
      "s"

end LogTint.Duration
