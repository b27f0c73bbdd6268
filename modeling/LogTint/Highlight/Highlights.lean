import LogTint.Highlight.Config
import LogTint.Highlight.Partition
import LogTint.Sgr.Style
import LogTint.Sgr.Token

/-!
# Styled spans and fold ranges

A highlighting pass cuts a text into spans of literal characters that share a
style, and may report the ranges of its sequences so that a host can fold them
away.  Together the spans and the sequences cover every byte once.
-/

namespace LogTint

/-- A run of literal text in one style. -/
structure Span where
  start : Nat
  stop : Nat
  style : Style
deriving DecidableEq

namespace Span

def range (span : Span) : ByteRange := ⟨span.start, span.stop⟩

/-- The text that the span covers.  There is none when the span does not fit
the text. -/
def text? (span : Span) (source : Text) : Option Text :=
  Text.slice? source span.start span.stop

end Span

/-- The result of a highlighting pass. -/
structure Highlights where
  spans : List Span
  folds : List ByteRange
deriving DecidableEq

/-- The literal run between two offsets, unless it is empty. -/
def literalRun (start stop : Nat) (style : Style) : List Span :=
  if start < stop then [⟨start, stop, style⟩] else []

/-- The spans from an offset to the end of the text.  A token ends the run
before it and changes the style of the runs after it. -/
def spansFrom (limit cursor : Nat) (style : Style) : List Token → List Span
  | [] => literalRun cursor limit style
  | token :: later =>
      literalRun cursor token.start style ++
        spansFrom limit token.stop (style.apply token.codes) later

namespace Highlights

/-- Cuts a text into styled spans and lists its fold ranges. -/
def compute (text : Text) (config : HighlightConfig) : Highlights :=
  let tokens := text.tokens config.literals
  { spans := spansFrom text.size 0 Style.plain tokens
    folds := if config.folds then tokens.map Token.range else [] }

def isEmpty (highlights : Highlights) : Bool :=
  highlights.spans.isEmpty && highlights.folds.isEmpty

/-- Style of the literal text at an offset. -/
def styleAt? (highlights : Highlights) (offset : Nat) : Option Style :=
  let index := partitionPoint (fun span => decide (span.stop ≤ offset))
    highlights.spans
  (highlights.spans[index]?.filter fun span => decide (span.start ≤ offset)).map
    (·.style)

/-- Fold range that holds an offset. -/
def foldAt? (highlights : Highlights) (offset : Nat) : Option ByteRange :=
  let index := partitionPoint (fun range => decide (range.stop ≤ offset))
    highlights.folds
  highlights.folds[index]?.filter fun range => decide (range.start ≤ offset)

def pieces? (highlights : Highlights) (source : Text) : Option (List Text) :=
  highlights.spans.mapM (·.text? source)

/-- The literal text of all spans together. -/
def plainText? (highlights : Highlights) (source : Text) : Option Text :=
  (highlights.pieces? source).map List.flatten

end Highlights

/-- The styled spans of a text, both marker forms recognized. -/
def buildSpans (text : Text) : List Span :=
  (Highlights.compute text { HighlightConfig.enabled with folds := false }).spans

end LogTint
