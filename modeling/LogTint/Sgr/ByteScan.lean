import LogTint.Sgr.Token
import LogTint.Text.Bytes

/-!
# Scanning bytes

A scan need not decode a text: it can look for markers among the bytes.  Such a
scan works with offsets that it computes, so a step that takes a byte or a
slice may find it outside the text or inside a character.  Those are faults
here, and a scan breaks off at the first one.
-/

namespace LogTint

/-- What a scan of bytes may stumble over. -/
inductive ScanFault where
  /-- There is no byte at the offset. -/
  | index (offset : Nat)
  /-- The range is not a part of the text. -/
  | slice (start stop : Nat)
deriving DecidableEq

/-- A text whose bytes are scanned. -/
structure ByteScan where
  literals : Bool
  text : Text

namespace ByteScan

def bytes (scan : ByteScan) : List UInt8 := scan.text.bytes

def escape : UInt8 := 0x1b

def backslash : UInt8 := 0x5c

def bracket : UInt8 := 0x5b

def final : UInt8 := 0x6d

/-- Whether a byte may begin a marker. -/
def opens (literals : Bool) (byte : UInt8) : Bool :=
  byte = escape || (literals && byte = backslash)

/-- Whether a byte may stand among the parameters. -/
def isParameter (byte : UInt8) : Bool :=
  (0x30 ≤ byte && byte ≤ 0x39) || byte = 0x3b

def byteAt (bytes : List UInt8) (offset : Nat) : Except ScanFault UInt8 :=
  match bytes[offset]? with
  | some byte => .ok byte
  | none => .error (.index offset)

/-- The bytes from an offset on. -/
def drop (bytes : List UInt8) (start : Nat) : Except ScanFault (List UInt8) :=
  if start ≤ bytes.length then .ok (bytes.drop start)
  else .error (.slice start bytes.length)

/-- The characters of a range. -/
def slice (scan : ByteScan) (start stop : Nat) : Except ScanFault Text :=
  match scan.text.slice? start stop with
  | some part => .ok part
  | none => .error (.slice start stop)

/-- Whether bytes that follow a backslash spell the escape character. -/
def spellsEscape (tail : List UInt8) : Except ScanFault Bool := do
  let letter ← byteAt tail 0
  let digits ← drop tail 1
  return letter = 0x75 &&
    (digits = [0x30, 0x30, 0x31, 0x42] || digits = [0x30, 0x30, 0x31, 0x62])

/-- The length of the marker at an offset, if there is one. -/
def markerAt (scan : ByteScan) (position : Nat) : Except ScanFault (Option Nat) :=
  match scan.bytes[position]? with
  | none => return none
  | some byte =>
      if byte = escape then return some 1
      else if byte = backslash ∧ scan.literals ∧ position + 6 ≤ scan.bytes.length then do
        let spelled ← spellsEscape ((scan.bytes.drop (position + 1)).take 5)
        return if spelled then some 6 else none
      else return none

/-- The parameters of the body at an offset and where the body ends, if there
is one. -/
def bodyAt (scan : ByteScan) (opening : Nat) :
    Except ScanFault (Option (Text × Nat)) :=
  if scan.bytes[opening]? = some bracket then do
    let rest ← drop scan.bytes (opening + 1)
    let stop := opening + 1 + (rest.takeWhile isParameter).length
    if scan.bytes[stop]? = some final then do
      let parameters ← scan.slice (opening + 1) stop
      return some (parameters, stop + 1)
    else return none
  else return none

/-- The end and the codes of the sequence at an offset, if there is one. -/
def sequenceAt (scan : ByteScan) (position : Nat) :
    Except ScanFault (Option (Nat × List Code)) := do
  match ← scan.markerAt position with
  | none => return none
  | some length =>
      let body ← scan.bodyAt (position + length)
      return body.map fun (parameters, stop) => (stop, Code.split parameters)

/-- The offset of the next byte that may begin a marker. -/
def candidate (scan : ByteScan) (position : Nat) : Except ScanFault (Option Nat) := do
  let rest ← drop scan.bytes position
  return (rest.findIdx? (opens scan.literals)).map (position + ·)

theorem candidate_bounds {scan : ByteScan} {position next : Nat}
    (found : scan.candidate position = .ok (some next)) :
    position ≤ next ∧ next < scan.bytes.length := by
  unfold candidate drop at found
  split at found
  case isFalse => cases found
  case isTrue inside =>
    obtain ⟨index, foundIndex, rfl⟩ := Option.map_eq_some_iff.mp (Except.ok.inj found)
    have bound := (List.findIdx?_eq_some_iff_getElem.mp foundIndex).1
    rw [List.length_drop] at bound
    omega

theorem bodyAt_stop {scan : ByteScan} {opening stop : Nat} {parameters : Text}
    (matched : scan.bodyAt opening = .ok (some (parameters, stop))) :
    opening < stop := by
  unfold bodyAt at matched
  split at matched
  case isFalse => cases matched
  case isTrue =>
    cases dropped : drop scan.bytes (opening + 1) with
    | error =>
        rw [dropped] at matched
        cases matched
    | ok rest =>
        rw [dropped] at matched
        simp only [bind, Except.bind] at matched
        split at matched
        case isFalse => cases matched
        case isTrue =>
          split at matched
          case h_1 => cases matched
          case h_2 =>
            cases matched
            omega

theorem sequenceAt_stop {scan : ByteScan} {position stop : Nat} {codes : List Code}
    (matched : scan.sequenceAt position = .ok (some (stop, codes))) :
    position < stop := by
  unfold sequenceAt at matched
  simp only [bind, Except.bind] at matched
  split at matched
  case h_1 => cases matched
  case h_2 marker _ =>
    cases marker with
    | none => cases matched
    | some length =>
        simp only at matched
        split at matched
        case h_1 => cases matched
        case h_2 body found =>
          obtain ⟨⟨parameters, other⟩, same, last⟩ :=
            Option.map_eq_some_iff.mp (Except.ok.inj matched)
          cases last
          rw [same] at found
          have further := bodyAt_stop found
          omega

/-- The range and the codes of the next sequence, and the position of the scan
after it.  A candidate that opens none is passed by one byte; when none is left
the scan has passed the whole text. -/
def next (scan : ByteScan) (position : Nat) :
    Except ScanFault (Option (ByteRange × List Code) × Nat) :=
  match _found : scan.candidate position with
  | .error fault => .error fault
  | .ok none => .ok (none, scan.bytes.length)
  | .ok (some place) =>
      match scan.sequenceAt place with
      | .error fault => .error fault
      | .ok none => scan.next (place + 1)
      | .ok (some (stop, codes)) => .ok (some (⟨place, stop⟩, codes), stop)
termination_by scan.bytes.length - position
decreasing_by
  have bounds := candidate_bounds _found
  omega

/-- The ranges and codes of the sequences from an offset on.  A candidate that
opens none is passed by one byte. -/
def sequencesFrom (scan : ByteScan) (position : Nat) :
    Except ScanFault (List (ByteRange × List Code)) :=
  match _found : scan.candidate position with
  | .error fault => .error fault
  | .ok none => .ok []
  | .ok (some next) =>
      match _matched : scan.sequenceAt next with
      | .error fault => .error fault
      | .ok none => scan.sequencesFrom (next + 1)
      | .ok (some (stop, codes)) =>
          (scan.sequencesFrom stop).map ((⟨next, stop⟩, codes) :: ·)
termination_by scan.bytes.length - position
decreasing_by
  · have bounds := candidate_bounds _found
    omega
  · have bounds := candidate_bounds _found
    have stop := sequenceAt_stop _matched
    omega

/-- The ranges and codes of the sequences of the text. -/
def sequences (scan : ByteScan) : Except ScanFault (List (ByteRange × List Code)) :=
  scan.sequencesFrom 0

end ByteScan

end LogTint
