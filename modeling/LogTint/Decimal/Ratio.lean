/-!
# Ratios of counts
-/

namespace LogTint.Decimal

/-- The quotient of two counts as a floating-point number; zero when there is
nothing to divide by. -/
def ratio (part whole : UInt64) : Float :=
  if whole = 0 then 0 else part.toFloat / whole.toFloat

end LogTint.Decimal
