import LogTint.Text.Offset

/-!
# Bytes of a text

The UTF-8 form of a text.  Characters below 128 are one byte, and no other
character contains such a byte; so wherever an ASCII text is found among the
bytes of a text it stands in the text itself.  Not all bytes are the form of a
text, and no two texts have the same.
-/

namespace LogTint.Text

/-- The UTF-8 form of a text. -/
def bytes (text : Text) : List UInt8 := text.flatMap String.utf8EncodeChar

@[simp] theorem bytes_nil : bytes [] = [] := rfl

@[simp] theorem bytes_cons (char : Char) (rest : Text) :
    bytes (char :: rest) = String.utf8EncodeChar char ++ bytes rest := rfl

@[simp] theorem bytes_append (left right : Text) :
    bytes (left ++ right) = bytes left ++ bytes right := List.flatMap_append

@[simp] theorem length_bytes (text : Text) : (bytes text).length = size text := by
  induction text with
  | nil => rfl
  | cons char rest induction => simp [induction]

theorem bytes_eq_nil_iff {text : Text} : bytes text = [] ↔ text = [] := by
  rw [← List.length_eq_zero_iff, length_bytes, size_eq_zero_iff]

/-- The text that bytes are the UTF-8 form of, if there is one. -/
def ofBytes? (form : List UInt8) : Option Text :=
  (String.fromUTF8? form.toByteArray).map String.toList

theorem ofBytes?_eq_some_iff {form : List UInt8} {text : Text} :
    ofBytes? form = some text ↔ bytes text = form := by
  unfold ofBytes? String.fromUTF8?
  constructor
  · intro read
    obtain ⟨string, decoded, rfl⟩ := Option.map_eq_some_iff.mp read
    obtain ⟨valid, same⟩ := Option.dite_none_right_eq_some.mp decoded
    have array : string.toByteArray = form.toByteArray := by
      rw [← Option.some.inj same]
      rfl
    have encoded : (bytes string.toList).toByteArray = string.toByteArray :=
      String.utf8Encode_toList
    have listed := congrArg (fun array => array.data.toList) (encoded.trans array)
    simpa only [List.toList_data_toByteArray] using listed
  · rintro rfl
    have valid : (bytes text).toByteArray.IsValidUTF8 := .intro text rfl
    rw [dif_pos valid, Option.map_some, Option.some.injEq]
    exact String.toList_ofList

theorem encode_ascii {char : Char} (ascii : char.toNat < 128) :
    String.utf8EncodeChar char = [UInt8.ofNat char.toNat] := by
  unfold String.utf8EncodeChar
  exact if_pos (Nat.le_of_lt_succ ascii)

theorem encode_wide {char : Char} (wide : 128 ≤ char.toNat) :
    ∀ byte ∈ String.utf8EncodeChar char, 128 ≤ byte.toNat := by
  have small : ¬char.val.toNat ≤ 127 := Nat.not_le.mpr wide
  unfold String.utf8EncodeChar
  dsimp only
  rw [if_neg small]
  intro byte member
  split at member
  · simp only [List.mem_cons, List.not_mem_nil, or_false] at member
    rcases member with rfl | rfl <;> rw [UInt8.toNat_ofNat'] <;> omega
  · split at member
    · simp only [List.mem_cons, List.not_mem_nil, or_false] at member
      rcases member with rfl | rfl | rfl <;> rw [UInt8.toNat_ofNat'] <;> omega
    · simp only [List.mem_cons, List.not_mem_nil, or_false] at member
      rcases member with rfl | rfl | rfl | rfl <;> rw [UInt8.toNat_ofNat'] <;> omega

theorem encode_ne_nil (char : Char) : String.utf8EncodeChar char ≠ [] := by
  intro empty
  have length := String.length_utf8EncodeChar char
  have positive := char.utf8Size_pos
  rw [empty, List.length_nil] at length
  omega

/-- A byte below 128 among the bytes of a text is a character of the text. -/
theorem exists_char_of_bytes {text : Text} {left right : List UInt8} {char : Char}
    (ascii : char.toNat < 128)
    (same : bytes text = left ++ (String.utf8EncodeChar char ++ right)) :
    ∃ before after, text = before ++ char :: after ∧ bytes before = left ∧
      bytes after = right := by
  rw [encode_ascii ascii] at same
  induction text generalizing left with
  | nil => simp at same
  | cons first rest induction =>
      rw [bytes_cons] at same
      by_cases narrow : first.toNat < 128
      · rw [encode_ascii narrow] at same
        cases left with
        | nil =>
            simp only [List.cons_append, List.nil_append, List.cons.injEq] at same
            have sameChar : first = char := by
              apply Char.toNat_inj.mp
              have bytes := congrArg UInt8.toNat same.1
              simp only [UInt8.toNat_ofNat'] at bytes
              omega
            rw [sameChar]
            exact ⟨[], rest, rfl, rfl, same.2⟩
        | cons byte left =>
            simp only [List.cons_append, List.nil_append, List.cons.injEq] at same
            obtain ⟨before, after, rfl, beforeBytes, afterBytes⟩ := induction same.2
            refine ⟨first :: before, after, rfl, ?_, afterBytes⟩
            rw [bytes_cons, encode_ascii narrow, beforeBytes, same.1]
            rfl
      · have wide := encode_wide (Nat.not_lt.mp narrow)
        rcases List.append_eq_append_iff.mp same with
          ⟨between, long, short⟩ | ⟨between, short, long⟩
        · obtain ⟨before, after, rfl, beforeBytes, afterBytes⟩ := induction short
          exact ⟨first :: before, after, rfl, by rw [bytes_cons, beforeBytes, long],
            afterBytes⟩
        · cases between with
          | nil =>
              have sameRest : bytes rest = [] ++ ([UInt8.ofNat char.toNat] ++ right) :=
                long.symm
              obtain ⟨before, after, rfl, beforeBytes, afterBytes⟩ := induction sameRest
              refine ⟨first :: before, after, rfl, ?_, afterBytes⟩
              rw [bytes_cons, beforeBytes, short, List.append_nil, List.append_nil]
          | cons byte between =>
              -- The byte would be inside a character of several bytes.
              have inside := wide byte (by rw [short]; simp)
              simp only [List.cons_append, List.nil_append, List.cons.injEq] at long
              rw [← long.1, UInt8.toNat_ofNat'] at inside
              omega

theorem mem_bytes_iff {text : Text} {char : Char} (ascii : char.toNat < 128) :
    UInt8.ofNat char.toNat ∈ bytes text ↔ char ∈ text := by
  have encoded := encode_ascii ascii
  constructor
  · intro member
    obtain ⟨left, right, same⟩ := List.append_of_mem member
    rw [← List.singleton_append, ← encoded] at same
    obtain ⟨before, after, rfl, _⟩ := exists_char_of_bytes ascii same
    exact List.mem_append_right before List.mem_cons_self
  · intro member
    exact List.mem_flatMap.mpr ⟨char, member, by rw [encoded]; exact List.mem_cons_self⟩

/-- An ASCII text at the head of the bytes of a text is at the head of the
text. -/
theorem exists_rest_of_bytes {text part : Text} {right : List UInt8}
    (ascii : ∀ char ∈ part, char.toNat < 128)
    (same : bytes text = bytes part ++ right) :
    ∃ after, text = part ++ after ∧ bytes after = right := by
  induction part generalizing text with
  | nil => exact ⟨text, rfl, same⟩
  | cons char part induction =>
      obtain ⟨narrow, ascii⟩ := List.forall_mem_cons.mp ascii
      rw [bytes_cons, List.append_assoc] at same
      have atStart : bytes text =
          [] ++ (String.utf8EncodeChar char ++ (bytes part ++ right)) := same
      obtain ⟨before, rest, rfl, beforeBytes, restBytes⟩ :=
        exists_char_of_bytes narrow atStart
      obtain ⟨after, rfl, afterBytes⟩ := induction ascii restBytes
      cases before with
      | nil => exact ⟨after, rfl, afterBytes⟩
      | cons first before =>
          exact absurd (List.append_eq_nil_iff.mp beforeBytes).1 (encode_ne_nil first)

/-- Where an ASCII text is found among the bytes of a text it stands in the
text. -/
theorem bytes_eq_append_iff {text part : Text} {left right : List UInt8}
    (ascii : ∀ char ∈ part, char.toNat < 128) (nonempty : part ≠ []) :
    bytes text = left ++ (bytes part ++ right) ↔
      ∃ before after, text = before ++ (part ++ after) ∧ bytes before = left ∧
        bytes after = right := by
  constructor
  · intro same
    cases part with
    | nil => exact absurd rfl nonempty
    | cons char part =>
        obtain ⟨narrow, ascii⟩ := List.forall_mem_cons.mp ascii
        rw [bytes_cons, List.append_assoc] at same
        obtain ⟨before, rest, rfl, beforeBytes, restBytes⟩ :=
          exists_char_of_bytes narrow same
        obtain ⟨after, rfl, afterBytes⟩ := exists_rest_of_bytes ascii restBytes
        exact ⟨before, after, rfl, beforeBytes, afterBytes⟩
  · rintro ⟨before, after, rfl, rfl, rfl⟩
    simp

end LogTint.Text
