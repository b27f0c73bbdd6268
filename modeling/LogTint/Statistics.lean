import LogTint.Decimal.Ratio
import LogTint.Decimal.Tenths
import LogTint.Sgr.Token

/-!
# Counting the sequences of a text

Sequences are counted in total, by line and by category.  A sequence belongs
to the line on which it starts and counts once in every category it touches.
-/

namespace LogTint

/-- Counts of the sequences of a text. -/
structure Statistics where
  totalCodes : Nat
  totalLines : Nat
  linesWithCodes : Nat
  bytes : Nat
  /-- One count for every category, in order. -/
  categoryCounts : List Nat
deriving DecidableEq

/-- Progress of counting lines: the line reached, the last line that was
counted, and how many were. -/
structure LineCount where
  line : Nat
  lastCounted : Option Nat
  counted : Nat
deriving DecidableEq

/-- Moves over the text before a token and counts the token's line unless it
was the last one counted. -/
def LineCount.visit (progress : LineCount) (piece : Piece) : LineCount :=
  let line := progress.line + piece.before.count '\n'
  if progress.lastCounted = some line then { progress with line }
  else ⟨line, some line, progress.counted + 1⟩

namespace Statistics

/-- Counts the sequences of a text, both marker forms recognized. -/
def collect (text : Text) : Statistics :=
  let pieces := (Scanner.ofText true text).pieces.1
  { totalCodes := pieces.length
    totalLines := text.count '\n' + 1
    linesWithCodes := (pieces.foldl LineCount.visit ⟨0, none, 0⟩).counted
    bytes := text.size
    categoryCounts := Category.all.map fun category =>
      pieces.countP fun piece => piece.token.categories.contains category }

/-- Number of sequences in a category. -/
def count (statistics : Statistics) (category : Category) : Nat :=
  statistics.categoryCounts.getD category.index 0

/-- Average number of sequences on the lines that have any. -/
def codesPerLine (statistics : Statistics) : Float :=
  Decimal.ratio statistics.totalCodes.toUInt64
    statistics.linesWithCodes.toUInt64

/-- Size of the text in units of 1024 bytes. -/
def kilobytes (statistics : Statistics) : Float :=
  Decimal.ratio statistics.bytes.toUInt64 1024

/-- The counts as a sentence for readers. -/
def render (statistics : Statistics) : String :=
  toString statistics.totalCodes ++ " codes on " ++
    toString statistics.linesWithCodes ++ "/" ++
    toString statistics.totalLines ++ " lines (" ++
    Decimal.renderTenths statistics.codesPerLine ++ " per line, " ++
    Decimal.renderTenths statistics.kilobytes ++ " KB)"

end Statistics

end LogTint
