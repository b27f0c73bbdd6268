/-!
# The partition point of a list

Where a predicate holds on a first part of a list and fails on the rest, the
partition point is the index at which the rest begins.  It is found by halving
the interval in which it lies.
-/

namespace LogTint

/-- Halves an interval of indices that holds the partition point. -/
def partitionWithin {α : Type} (early : α → Bool) (items : List α)
    (low high : Nat) : Nat :=
  if low < high then
    let middle := (low + high) / 2
    match items[middle]? with
    | none => partitionWithin early items low middle
    | some item =>
        if early item then partitionWithin early items (middle + 1) high
        else partitionWithin early items low middle
  else low
termination_by high - low
decreasing_by all_goals omega

/-- The index at which a predicate stops to hold. -/
def partitionPoint {α : Type} (early : α → Bool) (items : List α) : Nat :=
  partitionWithin early items 0 items.length

end LogTint
