/-!
# Texts and byte offsets

A text is the list of its Unicode scalar values.  Every offset in this library
counts the bytes of its UTF-8 form, so an offset may fall inside a character;
`slice?` answers only for offsets that lie on character boundaries, while
`seek` moves on to the next boundary.
-/

namespace LogTint

/-- A text is the list of its Unicode scalar values. -/
abbrev Text := List Char

namespace Text

/-- Length of the UTF-8 form in bytes. -/
def size : Text → Nat
  | [] => 0
  | char :: rest => char.utf8Size + size rest

@[simp] theorem size_nil : size [] = 0 := rfl

@[simp] theorem size_cons (char : Char) (rest : Text) :
    size (char :: rest) = char.utf8Size + size rest := rfl

@[simp] theorem size_append (left right : Text) :
    size (left ++ right) = size left + size right := by
  induction left with
  | nil => simp
  | cons char rest induction => simp [induction, Nat.add_assoc]

theorem size_pos {text : Text} (nonempty : text ≠ []) : 0 < size text := by
  cases text with
  | nil => exact absurd rfl nonempty
  | cons char rest =>
      rw [size_cons]
      have positive := char.utf8Size_pos
      omega

@[simp] theorem size_eq_zero_iff {text : Text} : size text = 0 ↔ text = [] := by
  constructor
  · intro empty
    apply Decidable.byContradiction
    intro nonempty
    have positive := size_pos nonempty
    omega
  · rintro rfl
    rfl

/-- The text from a byte offset on, when the offset is a character boundary. -/
def dropBytes? : Nat → Text → Option Text
  | 0, text => some text
  | _ + 1, [] => none
  | offset + 1, char :: rest =>
      if char.utf8Size ≤ offset + 1 then
        dropBytes? (offset + 1 - char.utf8Size) rest
      else none

/-- The text before a byte offset, when the offset is a character boundary. -/
def takeBytes? : Nat → Text → Option Text
  | 0, _ => some []
  | _ + 1, [] => none
  | offset + 1, char :: rest =>
      if char.utf8Size ≤ offset + 1 then
        (takeBytes? (offset + 1 - char.utf8Size) rest).map (char :: ·)
      else none

/-- The bytes from `start` up to `stop`.  There is no such text when the range
is reversed, passes the end or cuts a character. -/
def slice? (text : Text) (start stop : Nat) : Option Text :=
  if start ≤ stop then
    (dropBytes? start text).bind (takeBytes? (stop - start))
  else none

theorem dropBytes?_eq_some_iff {offset : Nat} {text rest : Text} :
    dropBytes? offset text = some rest ↔
      ∃ before, text = before ++ rest ∧ size before = offset := by
  induction text generalizing offset with
  | nil => cases offset <;> simp_all [dropBytes?]
  | cons char text induction =>
      cases offset with
      | zero => simp [dropBytes?]
      | succ offset =>
          rw [dropBytes?]
          constructor
          · intro same
            obtain ⟨fits, same⟩ := Option.ite_none_right_eq_some.mp same
            obtain ⟨before, same, length⟩ := induction.mp same
            refine ⟨char :: before, by rw [same, List.cons_append], ?_⟩
            rw [size_cons]
            omega
          · rintro ⟨before, same, length⟩
            cases before with
            | nil => cases length
            | cons first before =>
                obtain ⟨rfl, sameRest⟩ := List.cons.inj same
                rw [size_cons] at length
                rw [if_pos (by omega)]
                exact induction.mpr ⟨before, sameRest, by omega⟩

theorem takeBytes?_eq_some_iff {offset : Nat} {text part : Text} :
    takeBytes? offset text = some part ↔
      ∃ after, text = part ++ after ∧ size part = offset := by
  induction text generalizing offset part with
  | nil => cases offset <;> simp_all [takeBytes?]
  | cons char text induction =>
      cases offset with
      | zero =>
          simp only [takeBytes?, Option.some.injEq, size_eq_zero_iff]
          constructor
          · rintro rfl
            exact ⟨_, rfl, rfl⟩
          · exact fun ⟨_, _, empty⟩ => empty.symm
      | succ offset =>
          rw [takeBytes?]
          constructor
          · intro same
            obtain ⟨fits, same⟩ := Option.ite_none_right_eq_some.mp same
            obtain ⟨part, taken, rfl⟩ := Option.map_eq_some_iff.mp same
            obtain ⟨after, same, length⟩ := induction.mp taken
            refine ⟨after, by rw [same, List.cons_append], ?_⟩
            rw [size_cons]
            omega
          · rintro ⟨after, same, length⟩
            cases part with
            | nil => cases length
            | cons first part =>
                obtain ⟨rfl, sameRest⟩ := List.cons.inj same
                rw [size_cons] at length
                rw [if_pos (by omega)]
                exact Option.map_eq_some_iff.mpr
                  ⟨part, induction.mpr ⟨after, sameRest, by omega⟩, rfl⟩

/-- A range has a text exactly if the text lies there. -/
theorem slice?_eq_some_iff {text part : Text} {start stop : Nat} :
    slice? text start stop = some part ↔
      ∃ before after, text = before ++ (part ++ after) ∧ size before = start ∧
        stop = start + size part := by
  unfold slice?
  constructor
  · intro sliced
    obtain ⟨ordered, sliced⟩ := Option.ite_none_right_eq_some.mp sliced
    obtain ⟨rest, dropped, taken⟩ := Option.bind_eq_some_iff.mp sliced
    obtain ⟨before, rfl, length⟩ := dropBytes?_eq_some_iff.mp dropped
    obtain ⟨after, rfl, partLength⟩ := takeBytes?_eq_some_iff.mp taken
    exact ⟨before, after, rfl, length, by omega⟩
  · rintro ⟨before, after, same, length, rfl⟩
    rw [if_pos (Nat.le_add_right _ _), Nat.add_sub_cancel_left]
    exact Option.bind_eq_some_iff.mpr
      ⟨_, dropBytes?_eq_some_iff.mpr ⟨before, same, length⟩,
        takeBytes?_eq_some_iff.mpr ⟨after, rfl, rfl⟩⟩

/-- The first character boundary at or after `target`, given that the text
begins at offset `base`, together with the text from there on. -/
def seek (target : Nat) : Nat → Text → Nat × Text
  | base, [] => (base, [])
  | base, char :: rest =>
      if target ≤ base then (base, char :: rest)
      else seek target (base + char.utf8Size) rest

end Text

/-- A range of byte offsets, `start` included and `stop` not. -/
structure ByteRange where
  start : Nat
  stop : Nat
deriving DecidableEq

namespace ByteRange

/-- Number of bytes in the range. -/
def length (range : ByteRange) : Nat := range.stop - range.start

/-- A range that ends where it starts, or earlier, holds nothing. -/
def isEmpty (range : ByteRange) : Bool := decide (range.stop ≤ range.start)

end ByteRange

end LogTint
