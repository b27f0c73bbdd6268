import LogTint.Proofs.Scan
import LogTint.Sgr.ByteScan

/-!
# Scanning bytes finds the same sequences

Every offset that a scan of bytes computes is a boundary between characters,
since candidates are single bytes and sequences are ASCII.  So the scan never
breaks off, and it finds what the scanner finds.
-/

namespace LogTint

namespace Marker

theorem render_ascii (marker : Marker) : ∀ char ∈ marker.render, char.toNat < 128 := by
  match marker with
  | .escape | .literal true | .literal false => simp [render]

end Marker

namespace Sequence

theorem isParameter_ascii {char : Char} (allowed : isParameter char = true) :
    char.toNat < 128 := by
  simp only [isParameter, Char.isDigit, Bool.or_eq_true, Bool.and_eq_true,
    decide_eq_true_eq] at allowed
  rcases allowed with ⟨_, digit⟩ | rfl
  · have bound : char.toNat ≤ 57 := digit
    omega
  · decide

theorem render_ascii {literals : Bool} {sequence : Sequence}
    (admitted : sequence.isAdmitted literals = true) :
    ∀ char ∈ sequence.render, char.toNat < 128 := by
  intro char member
  simp only [render, List.mem_append, List.mem_cons, List.not_mem_nil,
    or_false] at member
  rcases member with (marked | rfl | parameter) | rfl
  · exact sequence.marker.render_ascii char marked
  · decide
  · exact isParameter_ascii ((isAdmitted_iff.mp admitted).2 char parameter)
  · decide

end Sequence

namespace Sequence

theorem size_render (sequence : Sequence) :
    sequence.render.size =
      sequence.marker.render.size + Text.size sequence.parameters + 2 := by
  rw [render, Text.size_append, Text.size_append, Text.size_cons]
  change _ + (1 + _) + 1 = _
  omega

end Sequence

namespace ByteScan

variable {scan : ByteScan} {before rest : Text}

theorem bytes_of_text (split : scan.text = before ++ rest) :
    scan.bytes = before.bytes ++ rest.bytes := by
  rw [bytes, split, Text.bytes_append]

theorem getElem?_of_text (split : scan.text = before ++ rest) (index : Nat) :
    scan.bytes[before.size + index]? = rest.bytes[index]? := by
  rw [bytes_of_text split, List.getElem?_append_right (by simp)]
  simp

theorem drop_of_text (split : scan.text = before ++ rest) (index : Nat) :
    scan.bytes.drop (before.size + index) = rest.bytes.drop index := by
  rw [bytes_of_text split, List.drop_append]
  simp

theorem literal_bytes (capital : Bool) :
    Text.bytes (Marker.literal capital).render =
      [backslash, 0x75, 0x30, 0x30, 0x31, if capital then 0x42 else 0x62] := by
  cases capital <;> decide

theorem literal_size (capital : Bool) : Text.size (Marker.literal capital).render = 6 := by
  cases capital <;> decide

theorem markerAt_of_read? {after : Text} {marker : Marker}
    (split : scan.text = before ++ rest)
    (read : Marker.read? scan.literals rest = some (marker, after)) :
    scan.markerAt before.size = .ok (some marker.render.size) := by
  obtain ⟨counts, rfl⟩ := Marker.read?_eq_some_iff.mp read
  have first := getElem?_of_text split 0
  have following := drop_of_text split 1
  rw [Nat.add_zero] at first
  rw [Text.bytes_append] at first following
  unfold markerAt
  match marker with
  | .escape =>
      rw [first]
      rfl
  | .literal capital =>
      have room : before.size + 6 ≤ scan.bytes.length := by
        rw [bytes_of_text split]
        simp [literal_size]
      rw [literal_bytes] at first following
      rw [first, following]
      simp only [List.cons_append, List.getElem?_cons_zero]
      rw [if_neg (by decide), if_pos ⟨trivial, counts, room⟩, literal_size]
      cases capital <;> rfl

/-- Bytes are a marker only where the characters are. -/
theorem markerAt_of_read?_none (split : scan.text = before ++ rest)
    (unread : Marker.read? scan.literals rest = none) :
    scan.markerAt before.size = .ok none := by
  have first := getElem?_of_text split 0
  have following := drop_of_text split 1
  have noMarker : ∀ (marker : Marker) (right : List UInt8),
      marker.isAdmitted scan.literals = true →
        rest.bytes ≠ Text.bytes marker.render ++ right := by
    intro marker right counts same
    obtain ⟨after, rfl, _⟩ := Text.exists_rest_of_bytes marker.render_ascii same
    cases unread.symm.trans (Marker.read?_eq_some_iff.mpr ⟨counts, rfl⟩)
  unfold markerAt
  rw [Nat.add_zero] at first
  rw [first, following]
  cases bytes : rest.bytes with
  | nil => rfl
  | cons byte tail =>
      simp only [List.getElem?_cons_zero, List.drop_succ_cons, List.drop_zero]
      split
      case isTrue escaped =>
          subst escaped
          exact absurd bytes (noMarker .escape tail rfl)
      case isFalse =>
          split
          case isFalse => rfl
          case isTrue spelled =>
              obtain ⟨rfl, counts, room⟩ := spelled
              rw [bytes_of_text split, bytes, List.length_append, Text.length_bytes,
                List.length_cons] at room
              match tail with
              | a :: b :: c :: d :: e :: right =>
                have answer : spellsEscape [a, b, c, d, e] =
                    .ok (a = 0x75 && ([b, c, d, e] = [0x30, 0x30, 0x31, 0x42] ||
                      [b, c, d, e] = [0x30, 0x30, 0x31, 0x62])) := rfl
                simp only [List.take_succ_cons, List.take_zero, answer]
                refine congrArg Except.ok (if_neg fun word => ?_)
                simp only [Bool.and_eq_true, Bool.or_eq_true, decide_eq_true_eq,
                  List.cons.injEq, and_true] at word
                obtain ⟨rfl, ⟨rfl, rfl, rfl, rfl⟩ | ⟨rfl, rfl, rfl, rfl⟩⟩ := word
                · refine noMarker (.literal true) right counts (bytes.trans ?_)
                  rw [literal_bytes]
                  rfl
                · refine noMarker (.literal false) right counts (bytes.trans ?_)
                  rw [literal_bytes]
                  rfl
              | [] | [_] | [_, _] | [_, _, _] | [_, _, _, _] =>
                simp only [List.length_cons, List.length_nil] at room
                omega

theorem markerAt_eq (split : scan.text = before ++ rest) :
    scan.markerAt before.size =
      .ok ((Marker.read? scan.literals rest).map fun found => found.1.render.size) := by
  cases read : Marker.read? scan.literals rest with
  | none => exact markerAt_of_read?_none split read
  | some found => exact markerAt_of_read? split read

theorem isParameter_encode {char : Char} (ascii : char.toNat < 128) :
    isParameter (UInt8.ofNat char.toNat) = Sequence.isParameter char := by
  have value : (UInt8.ofNat char.toNat).toNat = char.toNat := by
    rw [UInt8.toNat_ofNat']
    omega
  rw [Bool.eq_iff_iff]
  simp only [isParameter, Sequence.isParameter, Char.isDigit, Bool.or_eq_true,
    Bool.and_eq_true, decide_eq_true_eq, UInt8.le_iff_toNat_le, ← UInt8.toNat_inj, value,
    ← Char.toNat_inj, ge_iff_le, UInt32.le_iff_toNat_le]
  rfl

/-- The parameters among the bytes are those among the characters. -/
theorem takeWhile_bytes (text : Text) :
    text.bytes.takeWhile isParameter = Text.bytes (text.takeWhile Sequence.isParameter) := by
  induction text with
  | nil => rfl
  | cons char rest induction =>
      by_cases ascii : char.toNat < 128
      · rw [Text.bytes_cons, Text.encode_ascii ascii, List.singleton_append,
          List.takeWhile_cons, List.takeWhile_cons, isParameter_encode ascii, induction]
        split
        · rw [Text.bytes_cons, Text.encode_ascii ascii, List.singleton_append]
        · rfl
      · have wide := Text.encode_wide (Nat.not_lt.mp ascii)
        have foreign : Sequence.isParameter char = false :=
          Bool.eq_false_iff.mpr fun allowed => ascii (Sequence.isParameter_ascii allowed)
        rw [List.takeWhile_cons, foreign, Text.bytes_cons]
        cases encoded : String.utf8EncodeChar char with
        | nil => exact absurd encoded (Text.encode_ne_nil char)
        | cons byte others =>
            have large := wide byte (by rw [encoded]; exact List.mem_cons_self)
            have foreignByte : isParameter byte = false := by
              simp only [isParameter, Bool.or_eq_false_iff, Bool.and_eq_false_iff,
                decide_eq_false_iff_not, UInt8.le_iff_toNat_le, ← UInt8.toNat_inj]
              constructor
              · right
                change ¬byte.toNat ≤ 57
                omega
              · change ¬byte.toNat = 59
                omega
            rw [List.cons_append, List.takeWhile_cons, foreignByte]
            rfl

theorem getElem?_zero_bytes {text : Text} (char : Char) (ascii : char.toNat < 128) :
    text.bytes[0]? = some (UInt8.ofNat char.toNat) ↔ ∃ rest, text = char :: rest := by
  constructor
  · intro first
    cases bytes : text.bytes with
    | nil =>
        rw [bytes] at first
        cases first
    | cons byte tail =>
        rw [bytes, List.getElem?_cons_zero, Option.some.injEq] at first
        have same : text.bytes = Text.bytes [char] ++ tail := by
          rw [bytes, first, Text.bytes_cons, Text.encode_ascii ascii]
          rfl
        obtain ⟨rest, text, _⟩ := Text.exists_rest_of_bytes (by simpa using ascii) same
        exact ⟨rest, text⟩
  · rintro ⟨rest, rfl⟩
    rw [Text.bytes_cons, Text.encode_ascii ascii]
    rfl

theorem readBody?_bracket (text : Text) :
    Sequence.readBody? ('[' :: text) =
      match text.dropWhile Sequence.isParameter with
      | 'm' :: after => some (text.takeWhile Sequence.isParameter, after)
      | _ => none := rfl

theorem bodyAt_eq (split : scan.text = before ++ rest) :
    scan.bodyAt before.size =
      .ok ((Sequence.readBody? rest).map fun found =>
        (found.1, before.size + found.1.size + 2)) := by
  have first := getElem?_of_text split 0
  rw [Nat.add_zero] at first
  have opening : rest.bytes[0]? = some bracket ↔ ∃ inner : Text, rest = '[' :: inner :=
    getElem?_zero_bytes '[' (by decide)
  unfold bodyAt
  rw [first]
  split
  case isFalse closed =>
    rw [opening] at closed
    unfold Sequence.readBody?
    split
    case h_1 inner => exact absurd ⟨inner, rfl⟩ closed
    case h_2 => rfl
  case isTrue opened =>
    obtain ⟨inner, rfl⟩ := opening.mp opened
    have room : before.size + 1 ≤ scan.bytes.length := by
      rw [bytes_of_text split, List.length_append, Text.length_bytes, Text.length_bytes,
        Text.size_cons]
      have positive := Char.utf8Size_pos '['
      omega
    have dropped : drop scan.bytes (before.size + 1) = .ok (Text.bytes inner) := by
      rw [drop, if_pos room, drop_of_text split]
      rfl
    let parameters : Text := inner.takeWhile Sequence.isParameter
    let ending : Text := inner.dropWhile Sequence.isParameter
    have parts : inner = parameters ++ ending := List.takeWhile_append_dropWhile.symm
    have resplit : scan.text = (before ++ '[' :: parameters) ++ ending := by
      rw [split, List.append_assoc, List.cons_append, ← parts]
    have stop : before.size + 1 + ((Text.bytes inner).takeWhile isParameter).length =
        Text.size (before ++ '[' :: parameters) := by
      rw [takeWhile_bytes, Text.length_bytes, Text.size_append, Text.size_cons,
        Nat.add_assoc]
      rfl
    have last := getElem?_of_text resplit 0
    rw [Nat.add_zero] at last
    have closing : ending.bytes[0]? = some final ↔ ∃ after, ending = 'm' :: after :=
      getElem?_zero_bytes 'm' (by decide)
    rw [dropped]
    simp only [bind, Except.bind]
    rw [stop, last, readBody?_bracket]
    split
    case isFalse unclosed =>
      rw [closing] at unclosed
      split
      case h_1 after ends => exact absurd ⟨after, ends⟩ unclosed
      case h_2 => rfl
    case isTrue closed =>
      obtain ⟨after, ends⟩ := closing.mp closed
      have sliced : scan.text.slice? (before.size + 1)
          (Text.size (before ++ '[' :: parameters)) = some parameters := by
        refine Text.slice?_eq_some_iff.mpr ⟨before ++ ['['], ending, ?_, ?_, ?_⟩
        · rw [resplit]
          simp
        · rw [Text.size_append]
          rfl
        · rw [Text.size_append, Text.size_cons, Nat.add_assoc]
          rfl
      have found : inner.dropWhile Sequence.isParameter = 'm' :: after := ends
      rw [slice, sliced, found]
      have size : Text.size (before ++ '[' :: parameters) + 1 =
          before.size + Text.size parameters + 2 := by
        rw [← stop, takeWhile_bytes, Text.length_bytes]
        change before.size + 1 + Text.size parameters + 1 = _
        omega
      dsimp only [pure, Except.pure, Option.map_some]
      rw [size]
      rfl

theorem sequenceAt_eq (split : scan.text = before ++ rest) :
    scan.sequenceAt before.size =
      .ok ((Sequence.read? scan.literals rest).map fun found =>
        (before.size + found.1.render.size, found.1.codes)) := by
  unfold sequenceAt Sequence.read?
  rw [markerAt_eq split]
  cases read : Marker.read? scan.literals rest with
  | none => rfl
  | some found =>
      obtain ⟨marker, opened⟩ := found
      obtain ⟨_, rfl⟩ := Marker.read?_eq_some_iff.mp read
      rw [← List.append_assoc] at split
      have body := bodyAt_eq split
      rw [Text.size_append] at body
      simp only [bind, Except.bind, Option.map_some, Option.bind_some]
      rw [body]
      cases Sequence.readBody? opened with
      | none => rfl
      | some found =>
          have size := Sequence.size_render ⟨marker, found.1⟩
          simp only [Option.map_some, pure, Except.pure, size, Sequence.codes]
          rw [← Nat.add_assoc, ← Nat.add_assoc]

theorem candidate_eq (split : scan.text = before ++ rest) :
    scan.candidate before.size =
      .ok ((rest.bytes.findIdx? (opens scan.literals)).map (before.size + ·)) := by
  have room : before.size ≤ scan.bytes.length := by
    rw [bytes_of_text split, List.length_append, Text.length_bytes]
    omega
  have dropped := drop_of_text split 0
  rw [Nat.add_zero, List.drop_zero] at dropped
  rw [candidate, drop, if_pos room, dropped]
  rfl

section Steps

variable {position next stop : Nat} {codes : List Code}

theorem sequencesFrom_end (found : scan.candidate position = .ok none) :
    scan.sequencesFrom position = .ok [] := by
  rw [sequencesFrom]
  split <;> simp_all

theorem sequencesFrom_pass (found : scan.candidate position = .ok (some next))
    (unmatched : scan.sequenceAt next = .ok none) :
    scan.sequencesFrom position = scan.sequencesFrom (next + 1) := by
  rw [sequencesFrom]
  split
  case h_3 other foundOther =>
    cases found.symm.trans foundOther
    split
    case h_2 => rfl
    case h_1 matched | h_3 matched => cases unmatched.symm.trans matched
  case h_1 foundOther | h_2 foundOther => cases found.symm.trans foundOther

theorem sequencesFrom_take (found : scan.candidate position = .ok (some next))
    (matched : scan.sequenceAt next = .ok (some (stop, codes))) :
    scan.sequencesFrom position =
      (scan.sequencesFrom stop).map ((⟨next, stop⟩, codes) :: ·) := by
  rw [sequencesFrom]
  split
  case h_3 other foundOther =>
    cases found.symm.trans foundOther
    split
    case h_3 matchedOther =>
      cases matched.symm.trans matchedOther
      rfl
    case h_1 matchedOther | h_2 matchedOther => cases matched.symm.trans matchedOther
  case h_1 foundOther | h_2 foundOther => cases found.symm.trans foundOther

end Steps

/-- Where no byte up to an offset opens a marker, a scan may as well begin there. -/
theorem candidate_of_inert_bytes {position later : Nat} (ordered : position ≤ later)
    (bounded : later ≤ scan.bytes.length)
    (inert : ∀ byte ∈ (scan.bytes.drop position).take (later - position),
      opens scan.literals byte = false) :
    scan.candidate position = scan.candidate later := by
  have missing := List.findIdx?_eq_none_iff.mpr inert
  have parts := List.take_append_drop (later - position) (scan.bytes.drop position)
  rw [List.drop_drop, Nat.add_sub_cancel' ordered] at parts
  have length : ((scan.bytes.drop position).take (later - position)).length =
      later - position := by
    rw [List.length_take, List.length_drop]
    omega
  rw [candidate, candidate, drop, drop, if_pos (by omega), if_pos bounded, ← parts]
  simp only [bind, Except.bind, pure, Except.pure, List.findIdx?_append, missing,
    Option.none_or, Option.map_map, length]
  congr 2
  funext index
  simp only [Function.comp_apply]
  omega

/-- A scan from a character on looks at the same candidates as one from the
next character on, unless the character is one. -/
theorem candidate_of_inert {char : Char} (split : scan.text = before ++ char :: rest)
    (inert : ∀ byte ∈ String.utf8EncodeChar char, opens scan.literals byte = false) :
    scan.candidate before.size = scan.candidate (Text.size (before ++ [char])) := by
  have size : Text.size (before ++ [char]) = before.size + char.utf8Size := by
    rw [Text.size_append]
    rfl
  have dropped := drop_of_text split 0
  rw [Nat.add_zero, List.drop_zero] at dropped
  apply candidate_of_inert_bytes
  · omega
  · rw [bytes_of_text split, List.length_append, Text.length_bytes, Text.length_bytes,
      Text.size_cons, size]
    omega
  · rw [dropped, size, Nat.add_sub_cancel_left, Text.bytes_cons,
      ← String.length_utf8EncodeChar, List.take_left]
    exact inert

theorem candidate_of_opening {char : Char} (split : scan.text = before ++ char :: rest)
    (ascii : char.toNat < 128)
    (opening : opens scan.literals (UInt8.ofNat char.toNat) = true) :
    scan.candidate before.size = .ok (some before.size) := by
  rw [candidate_eq split, Text.bytes_cons, Text.encode_ascii ascii, List.singleton_append,
    List.findIdx?_cons, opening]
  rfl

theorem opens_wide {literals : Bool} {byte : UInt8} (wide : 128 ≤ byte.toNat) :
    opens literals byte = false := by
  have notEscape : byte ≠ escape := by
    rintro rfl
    exact absurd wide (by decide)
  have notBackslash : byte ≠ backslash := by
    rintro rfl
    exact absurd wide (by decide)
  simp [opens, notEscape, notBackslash]

theorem candidate_of_admitted {sequence : Sequence} {after : Text}
    (admitted : sequence.isAdmitted scan.literals = true)
    (split : scan.text = before ++ (sequence.render ++ after)) :
    scan.candidate before.size = .ok (some before.size) := by
  have counts := (Sequence.isAdmitted_iff.mp admitted).1
  obtain ⟨marker, parameters⟩ := sequence
  match marker with
  | .escape => exact candidate_of_opening split (by decide) rfl
  | .literal true =>
      refine candidate_of_opening split (by decide) ?_
      rw [show scan.literals = true from counts]
      rfl
  | .literal false =>
      refine candidate_of_opening split (by decide) ?_
      rw [show scan.literals = true from counts]
      rfl

/-- What a scan finds from an offset on that it may as well have begun at. -/
theorem sequencesFrom_of_scanned {offset position : Nat} {tokens : List Token}
    (scanned : Scanned scan.literals offset rest tokens)
    (split : scan.text = before ++ rest) (start : offset = before.size)
    (same : scan.candidate position = scan.candidate offset) :
    scan.sequencesFrom position =
      .ok (tokens.map fun token => (token.range, token.codes)) := by
  induction scanned generalizing before position with
  | nil =>
      subst start
      rw [candidate_eq split] at same
      exact sequencesFrom_end same
  | @skip offset char rest tokens closed scanned induction =>
      subst start
      have resplit : scan.text = (before ++ [char]) ++ rest := by
        rw [split, List.append_assoc, List.singleton_append]
      have start : before.size + char.utf8Size = Text.size (before ++ [char]) := by
        rw [Text.size_append]
        rfl
      by_cases inert : ∀ byte ∈ String.utf8EncodeChar char, opens scan.literals byte = false
      · rw [candidate_of_inert split inert, ← start] at same
        exact induction resplit start same
      · simp only [not_forall, Bool.not_eq_false] at inert
        obtain ⟨byte, member, opening⟩ := inert
        have ascii : char.toNat < 128 := by
          apply Nat.lt_of_not_le
          intro wide
          cases (opens_wide (Text.encode_wide wide byte member)).symm.trans opening
        have encoded := Text.encode_ascii ascii
        rw [encoded, List.mem_singleton] at member
        rw [candidate_of_opening split ascii (member ▸ opening)] at same
        have unmatched := sequenceAt_eq split
        rw [closed] at unmatched
        rw [sequencesFrom_pass same unmatched]
        have oneByte : char.utf8Size = 1 := by
          rw [← String.length_utf8EncodeChar, encoded]
          rfl
        rw [oneByte] at induction start
        exact induction resplit start rfl
  | @take offset sequence after tokens admitted scanned induction =>
      subst start
      have resplit : scan.text = (before ++ sequence.render) ++ after := by
        rw [split, List.append_assoc]
      have start : before.size + sequence.render.size =
          Text.size (before ++ sequence.render) := (Text.size_append _ _).symm
      rw [candidate_of_admitted admitted split] at same
      have matched := sequenceAt_eq split
      rw [Sequence.read?_eq_some_iff.mpr ⟨admitted, rfl⟩] at matched
      rw [sequencesFrom_take same matched, induction resplit start rfl]
      rfl

/-- A scan of the bytes breaks off nowhere and finds the tokens of the text. -/
theorem sequences_eq (literals : Bool) (text : Text) :
    sequences ⟨literals, text⟩ =
      .ok ((text.tokens literals).map fun token => (token.range, token.codes)) := by
  have split : text = [] ++ text := rfl
  exact sequencesFrom_of_scanned (text.scanned literals) split rfl rfl

end ByteScan

end LogTint
