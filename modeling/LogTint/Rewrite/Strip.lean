import LogTint.Sgr.Token

/-!
# Removing the sequences of a text
-/

namespace LogTint

/-- The text without its sequences; `none` when it has no sequence. -/
def strip? (text : Text) : Option Text :=
  match (Scanner.ofText true text).pieces with
  | ([], _) => none
  | (pieces, tail) => some (pieces.flatMap (·.before) ++ tail)

def strip (text : Text) : Text := (strip? text).getD text

end LogTint
