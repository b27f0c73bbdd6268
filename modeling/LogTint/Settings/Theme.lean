import LogTint.Sgr.Color

/-!
# Themes
-/

namespace LogTint

inductive Theme where
  | dark
  | light
deriving DecidableEq

namespace Theme

/-- The color in which a folded sequence cannot be told from the background. -/
def concealedColor : Theme → Rgb
  | .dark => ⟨30, 30, 30⟩
  | .light => ⟨255, 255, 255⟩

/-- The color of a sequence that is shown under the caret. -/
def hintColor : Theme → Rgb
  | .dark => ⟨100, 100, 100⟩
  | .light => ⟨150, 150, 150⟩

end Theme

end LogTint
