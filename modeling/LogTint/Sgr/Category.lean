import LogTint.Sgr.Group

/-!
# Categories of codes

A category says which kind of attribute a code group sets.  Italic, underline
and the codes that do nothing belong to none.
-/

namespace LogTint

/-- The kind of attribute that a code group sets. -/
inductive Category where
  | reset
  | bold
  | basicColor
  | brightColor
  | background
  | indexedColor
  | truecolor
deriving DecidableEq

namespace Category

def all : List Category :=
  [.reset, .bold, .basicColor, .brightColor, .background, .indexedColor,
    .truecolor]

/-- Place of a category in the order. -/
def index : Category → Nat
  | .reset => 0
  | .bold => 1
  | .basicColor => 2
  | .brightColor => 3
  | .background => 4
  | .indexedColor => 5
  | .truecolor => 6

def name : Category → String
  | .reset => "reset"
  | .bold => "bold"
  | .basicColor => "basic color"
  | .brightColor => "bright color"
  | .background => "background"
  | .indexedColor => "256-color"
  | .truecolor => "truecolor"

/-- The category of a group that consists of one code with a value. -/
def ofValue? (value : Nat) : Option Category :=
  if value = 0 then some .reset
  else if value = 1 then some .bold
  else if 30 ≤ value ∧ value ≤ 37 then some .basicColor
  else if 90 ≤ value ∧ value ≤ 97 then some .brightColor
  else if (40 ≤ value ∧ value ≤ 47) ∨ (100 ≤ value ∧ value ≤ 107) then
    some .background
  else none

/-- The category of a code group.  Extended colors are told apart by the
length of the group. -/
def ofGroup? : List Code → Option Category
  | [] => none
  | first :: following =>
      if first.isEmpty then some .reset
      else
        match first.value? with
        | none => none
        | some value =>
            match following.length with
            | 0 => ofValue? value
            | 2 => if value = 38 ∨ value = 48 then some .indexedColor else none
            | 4 => if value = 38 ∨ value = 48 then some .truecolor else none
            | _ => none

/-- The distinct categories of the code groups of a sequence, in order. -/
def ofCodes (codes : List Code) : List Category :=
  let found := (codeGroups codes).filterMap ofGroup?
  all.filter fun category => found.contains category

/-- Whether some code group of a sequence is in the category. -/
def occursIn (category : Category) (codes : List Code) : Bool :=
  (codeGroups codes).any fun group => ofGroup? group = some category

end Category

end LogTint
