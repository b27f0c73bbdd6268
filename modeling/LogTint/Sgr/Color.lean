import LogTint.Sgr.Code

/-!
# Colors and the palette

A color stays symbolic until it is resolved, so that a host may map the
sixteen named colors to a theme of its own.  The palette brightens its eight
base colors by a fixed amount; entries 16 to 231 form a cube of six levels per
channel and entries 232 to 255 a ramp of grays.
-/

namespace LogTint

structure Rgb where
  red : UInt8
  green : UInt8
  blue : UInt8
deriving DecidableEq

/-- A color as a sequence refers to it. -/
inductive Color where
  | named (index : UInt8)
  | indexed (index : UInt8)
  | rgb (red green blue : UInt8)
deriving DecidableEq

namespace Rgb

/-- The gray of one level on every channel. -/
def gray (level : UInt8) : Rgb := ⟨level, level, level⟩

def hexByte (channel : UInt8) : String :=
  let digits := Nat.toDigits 16 channel.toNat
  String.ofList (List.replicate (2 - digits.length) '0' ++ digits)

def hex (color : Rgb) : String :=
  "#" ++ hexByte color.red ++ hexByte color.green ++ hexByte color.blue

/-- The color as a comma-separated triple of decimal channels. -/
def render (color : Rgb) : String :=
  "rgb(" ++ toString color.red.toNat ++ ", " ++ toString color.green.toNat ++
    ", " ++ toString color.blue.toNat ++ ")"

def channels (color : Rgb) : List Nat :=
  [color.red.toNat, color.green.toNat, color.blue.toNat]

/-- Colors are ordered by red, then green, then blue. -/
def le (left right : Rgb) : Bool :=
  (compare left.channels right.channels).isLE

end Rgb

namespace Color

/-- A named color; indices above 15 select the last one. -/
def ofName (index : UInt8) : Color := .named (min index 15)

/-- A palette color; numbers above 255 select the last entry. -/
def ofIndex (value : Nat) : Color := .indexed (clampByte value)

/-- A color given by channels; each is brought into the range of a byte. -/
def ofChannels (red green blue : Nat) : Color :=
  .rgb (clampByte red) (clampByte green) (clampByte blue)

/-- The reference that always resolves to the given color. -/
def ofRgb (color : Rgb) : Color := .rgb color.red color.green color.blue

def basePalette : List Rgb :=
  [⟨0, 0, 0⟩, ⟨128, 0, 0⟩, ⟨0, 128, 0⟩, ⟨128, 128, 0⟩,
    ⟨0, 0, 128⟩, ⟨128, 0, 128⟩, ⟨0, 128, 128⟩, ⟨192, 192, 192⟩]

/-- Adds the amount that sets bright colors apart from base colors. -/
def brighten (channel : UInt8) : UInt8 := clampByte (channel.toNat + 80)

/-- The sixteen system colors: the base palette, then its bright variants. -/
def resolveSystem (index : Nat) : Rgb :=
  let base := basePalette.getD (index % 8) ⟨0, 0, 0⟩
  if index < 8 then base
  else ⟨brighten base.red, brighten base.green, brighten base.blue⟩

/-- Channel value of one of the six levels of the cube. -/
def cubeLevel (level : Nat) : UInt8 :=
  if level = 0 then 0 else UInt8.ofNat (55 + (level - 1) * 40)

def resolveIndexed (index : Nat) : Rgb :=
  if index < 16 then resolveSystem index
  else if index < 232 then
    let cell := index - 16
    ⟨cubeLevel (cell / 36 % 6), cubeLevel (cell / 6 % 6), cubeLevel (cell % 6)⟩
  else Rgb.gray (UInt8.ofNat (8 + (index - 232) * 10))

/-- The concrete color that a reference stands for. -/
def resolve : Color → Rgb
  | .named index => resolveSystem (min index.toNat 15)
  | .indexed index => resolveIndexed index.toNat
  | .rgb red green blue => ⟨red, green, blue⟩

def names : List String :=
  ["Black", "Red", "Green", "Yellow", "Blue", "Magenta", "Cyan", "White",
    "Bright Black", "Bright Red", "Bright Green", "Bright Yellow",
    "Bright Blue", "Bright Magenta", "Bright Cyan", "Bright White"]

/-- The name of a system color; cube, ramp and channel colors have none. -/
def name? : Color → Option String
  | .named index => names[min index.toNat 15]?
  | .indexed index => names[index.toNat]?
  | .rgb _ _ _ => none

/-- Place of the kind of color first, then its numbers. -/
def sortKey : Color → List Nat
  | .named index => [0, index.toNat]
  | .indexed index => [1, index.toNat]
  | .rgb red green blue => [2, red.toNat, green.toNat, blue.toNat]

/-- Named colors come before palette colors and these before channel colors;
within a kind the numbers decide. -/
def le (left right : Color) : Bool := (compare left.sortKey right.sortKey).isLE

def sorted (colors : List Color) : List Color := colors.mergeSort le

end Color

def Rgb.sorted (colors : List Rgb) : List Rgb := colors.mergeSort Rgb.le

end LogTint
