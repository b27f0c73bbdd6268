import LogTint.Rewrite.Splice

/-!
# Turning palette colors into resets

A sequence that consists of nothing but a foreground palette color becomes a
reset.  Combined sequences are kept.
-/

namespace LogTint

/-- The sequence that resets every attribute. -/
def resetSequence : Sequence := ⟨.escape, ['0']⟩

/-- Whether a token consists of a foreground palette color and nothing else. -/
def Token.selectsIndexed (token : Token) : Bool :=
  match token.codes with
  | [first, _, index] =>
      first = ['3', '8'] && !index.isEmpty && token.hasCategory .indexedColor
  | _ => false

/-- Replaces every palette color sequence of a text by a reset. -/
def normalizeIndexed? (text : Text) : Option Text :=
  rewriteTokens
    (fun token => if token.selectsIndexed then some resetSequence.render else none)
    text

def normalizeIndexed (text : Text) : Text := (normalizeIndexed? text).getD text

end LogTint
