import LogTint.Rewrite.Splice

/-!
# Replacing codes inside sequences

Codes are replaced as whole groups, so a parameter of an extended color is
never taken for a code of its own.  A sequence that loses its last group is
removed; it would otherwise become a reset.
-/

namespace LogTint

/-- The groups of a sequence, each written with semicolons, after one is
replaced.  An empty replacement removes the group. -/
def replaceGroups (old new : Text) (groups : List Text) : List Text :=
  groups.flatMap fun group =>
    if group = old then (if new.isEmpty then [] else [new]) else [group]

/-- What replaces a token when groups equal to `old` become `new`. -/
def Token.replaceGroup? (old new : Text) (token : Token) : Option Text :=
  let groups := (codeGroups token.codes).map Code.join
  if groups.contains old then
    match replaceGroups old new groups with
    | [] => some []
    | kept =>
        some (token.sequence.marker.render ++ '[' :: Code.join kept ++ ['m'])
  else none

/-- Replaces one code group by another in every sequence of a text. -/
def replaceCode? (old new : Text) (text : Text) : Option Text :=
  rewriteTokens (Token.replaceGroup? old new) text

def replaceCode (old new : Text) (text : Text) : Text :=
  (replaceCode? old new text).getD text

end LogTint
