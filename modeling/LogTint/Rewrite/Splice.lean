import LogTint.Sgr.Token

/-!
# Replacing the sequences of a text

A rewriting pass asks once for every token, in order, whether to replace it
and by what.  The text between tokens is never touched.  The pass answers
`none` when every token was kept, so that a caller can tell an untouched text
from one whose tokens were replaced by equal ones.
-/

namespace LogTint

/-- Writes the pieces of a text with some tokens replaced. -/
def splice : List Piece → List (Option Text) → Text
  | [], _ => []
  | piece :: later, [] => piece.before ++ piece.token.text ++ splice later []
  | piece :: later, replacement :: replacements =>
      piece.before ++ replacement.getD piece.token.text ++
        splice later replacements

/-- Rewrites the tokens of a text by a replacement rule that may remember the
tokens it has seen. -/
def rewriteTokensM {σ : Type} (replace : Token → StateM σ (Option Text))
    (text : Text) : StateM σ (Option Text) := do
  let (pieces, tail) := (Scanner.ofText true text).pieces
  let replacements ← (pieces.map (·.token)).mapM replace
  pure (if replacements.any Option.isSome then
    some (splice pieces replacements ++ tail) else none)

/-- Rewrites the tokens of a text, each on its own. -/
def rewriteTokens (replace : Token → Option Text) (text : Text) : Option Text :=
  let (pieces, tail) := (Scanner.ofText true text).pieces
  let replacements := pieces.map fun piece => replace piece.token
  if replacements.any Option.isSome then
    some (splice pieces replacements ++ tail)
  else none

end LogTint
