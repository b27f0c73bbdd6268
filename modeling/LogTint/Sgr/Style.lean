import LogTint.Sgr.Color

/-!
# Styles and what codes do to them

Codes act from left to right.  The codes 38 and 48 select a color for the
foreground and the background when a selector and enough parameters follow;
otherwise they stand alone and do nothing.  An empty code resets like 0, and a
code that is no decimal number is skipped.
-/

namespace LogTint

/-- The attributes in effect at a point of a text. -/
structure Style where
  foreground : Option Color
  background : Option Color
  bold : Bool
  italic : Bool
  underline : Bool
deriving DecidableEq

inductive Layer where
  | foreground
  | background
deriving DecidableEq

/-- The layer whose color the code can select with the parameters after it. -/
def Layer.ofCode? (code : Code) : Option Layer :=
  match code.value? with
  | some 38 => some .foreground
  | some 48 => some .background
  | _ => none

namespace Style

/-- The style of text before any sequence. -/
def plain : Style := ⟨none, none, false, false, false⟩

instance : Inhabited Style := ⟨plain⟩

/-- A style is plain when no attribute is set. -/
def isPlain (style : Style) : Bool := decide (style = plain)

def paint (style : Style) (layer : Layer) (color : Color) : Style :=
  match layer with
  | .foreground => { style with foreground := some color }
  | .background => { style with background := some color }

/-- Sets the color of one layer if there is a color to set. -/
def paint? (style : Style) (layer : Layer) : Option Color → Style
  | some color => style.paint layer color
  | none => style

/-- What one code does on its own. -/
def applyCode (style : Style) (code : Code) : Style :=
  if code.isEmpty then plain
  else
    match code.value? with
    | none => style
    | some value =>
        if value = 0 then plain
        else if value = 1 then { style with bold := true }
        else if value = 3 then { style with italic := true }
        else if value = 4 then { style with underline := true }
        else if 30 ≤ value ∧ value ≤ 37 then
          style.paint .foreground (.ofName (clampByte (value - 30)))
        else if 90 ≤ value ∧ value ≤ 97 then
          style.paint .foreground (.ofName (clampByte (value - 90 + 8)))
        else if 40 ≤ value ∧ value ≤ 47 then
          style.paint .background (.ofName (clampByte (value - 40)))
        else if 100 ≤ value ∧ value ≤ 107 then
          style.paint .background (.ofName (clampByte (value - 100 + 8)))
        else style

/-- The palette color that a parameter names. -/
def indexedColor? (index : Code) : Option Color :=
  index.value?.map Color.ofIndex

/-- The color that three parameters name. -/
def channelColor? (red green blue : Code) : Option Color :=
  match red.value?, green.value?, blue.value? with
  | some redValue, some greenValue, some blueValue =>
      some (Color.ofChannels redValue greenValue blueValue)
  | _, _, _ => none

/-- The style after the codes of one sequence.  The selectors 5 and 2 are
matched as they are written; their parameters are consumed even when they name
no color. -/
def apply (style : Style) : List Code → Style
  | [] => style
  | code :: rest =>
      match Layer.ofCode? code with
      | none => (style.applyCode code).apply rest
      | some layer =>
          match rest with
          | ['5'] :: index :: after =>
              (style.paint? layer (indexedColor? index)).apply after
          | ['2'] :: red :: green :: blue :: after =>
              (style.paint? layer (channelColor? red green blue)).apply after
          | rest => style.apply rest

end Style

end LogTint
