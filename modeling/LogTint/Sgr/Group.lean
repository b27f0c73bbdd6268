import LogTint.Sgr.Code

/-!
# Code groups

A group is a run of codes that is interpreted as a unit: an extended color
with its selector and parameters, or a single code.
-/

namespace LogTint

/-- Number of codes in the group that begins with `code`.  A group longer than
one needs 38 or 48, a selector and enough parameters. -/
def groupLength (code : Code) (following : List Code) : Nat :=
  let extended := code.value? = some 38 ∨ code.value? = some 48
  if extended ∧ following.head? = some ['5'] ∧ 2 ≤ following.length then 3
  else if extended ∧ following.head? = some ['2'] ∧ 4 ≤ following.length then 5
  else 1

/-- Splits codes into the groups that are interpreted together. -/
def codeGroups : List Code → List (List Code)
  | [] => []
  | code :: following =>
      let extra := groupLength code following - 1
      (code :: following.take extra) :: codeGroups (following.drop extra)
termination_by codes => codes.length
decreasing_by
  simp only [List.length_drop, List.length_cons]
  omega

end LogTint
