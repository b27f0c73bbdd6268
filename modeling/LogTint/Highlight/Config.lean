/-!
# Options of a highlighting pass
-/

namespace LogTint

/-- What a highlighting pass recognizes and reports. -/
structure HighlightConfig where
  /-- Spelled-out escape markers open sequences too. -/
  literals : Bool
  /-- The ranges of the sequences are reported so that they can be folded. -/
  folds : Bool
deriving DecidableEq

namespace HighlightConfig

/-- Both marker forms, with fold ranges. -/
def enabled : HighlightConfig := ⟨true, true⟩

/-- Only the escape character opens a sequence; fold ranges are reported. -/
def rawOnly : HighlightConfig := ⟨false, true⟩

end HighlightConfig

end LogTint
