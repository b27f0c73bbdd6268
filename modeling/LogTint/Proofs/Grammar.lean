import LogTint.Proofs.ByteScan

/-!
# The grammar of tokens

The tokens of a text are exactly the ranges whose bytes are a marker, a
bracket, digits and semicolons, and the letter `m`.  They lie in order, and
without spelled-out markers those that begin with the escape character are left.
-/

namespace LogTint

namespace Code

theorem join_split (parameters : Text) : join (split parameters) = parameters :=
  List.intercalate_splitOn ';'

/-- Codes are split at every semicolon. -/
theorem semicolon_notMem_split (parameters : Text) :
    ∀ code ∈ split parameters, ';' ∉ code := by
  unfold split
  induction parameters with
  | nil => simp
  | cons char rest induction =>
      rw [List.splitOn_cons_eq_if_modifyHead]
      split
      case isTrue => simpa using induction
      case isFalse other =>
          have different : ';' ≠ char := fun same => other (beq_iff_eq.mpr same.symm)
          cases codes : List.splitOn ';' rest with
          | nil => exact absurd codes (List.splitOn_ne_nil _ _)
          | cons first later =>
              rw [codes] at induction
              obtain ⟨inFirst, inLater⟩ := List.forall_mem_cons.mp induction
              rw [List.modifyHead_cons]
              refine List.forall_mem_cons.mpr ⟨?_, inLater⟩
              simp [different, inFirst]

end Code

namespace Sequence

/-- The ways to write a sequence that counts. -/
theorem isAdmitted_mk_iff {literals : Bool} {marker : Marker} {parameters : Text} :
    isAdmitted literals ⟨marker, parameters⟩ = true ↔
      (marker = .escape ∨ literals = true) ∧
        ∀ char ∈ parameters, char.isDigit = true ∨ char = ';' := by
  rw [isAdmitted_iff]
  cases marker <;> simp [Marker.isAdmitted, isParameter]

end Sequence

namespace Text

/-- A range holds a part exactly if the part lies there. -/
theorem extract_bytes_iff {text part : Text} {start stop : Nat}
    (ascii : ∀ char ∈ part, char.toNat < 128) (nonempty : part ≠ []) :
    stop ≤ size text ∧ (bytes text).extract start stop = bytes part ↔
      ∃ before after, text = before ++ (part ++ after) ∧ start = size before ∧
        stop = start + size part := by
  have positive := size_pos nonempty
  constructor
  · rintro ⟨inside, same⟩
    rw [List.extract_eq_take_drop] at same
    have length := congrArg List.length same
    rw [List.length_take, List.length_drop, length_bytes, length_bytes] at length
    have split : bytes text = (bytes text).take start ++
        (bytes part ++ ((bytes text).drop start).drop (stop - start)) := by
      rw [← same, List.take_append_drop, List.take_append_drop]
    obtain ⟨before, after, sameText, beforeBytes, _⟩ :=
      (bytes_eq_append_iff ascii nonempty).mp split
    have beforeLength := congrArg List.length beforeBytes
    rw [length_bytes, List.length_take, length_bytes] at beforeLength
    exact ⟨before, after, sameText, by omega, by omega⟩
  · rintro ⟨before, after, rfl, rfl, rfl⟩
    constructor
    · rw [size_append, size_append]
      omega
    · simp

variable {literals : Bool} {text : Text}

theorem slice?_of_mem_tokens {token : Token} (member : token ∈ text.tokens literals) :
    text.slice? token.start token.stop = some token.text := by
  obtain ⟨_, before, after, same, start⟩ := mem_tokens_iff.mp member
  exact slice?_eq_some_iff.mpr ⟨before, after, same, start.symm, rfl⟩

/-- A token begins with the escape character exactly if that is its marker. -/
theorem getElem?_start {token : Token} (member : token ∈ text.tokens literals) :
    (bytes text)[token.start]? = some 0x1b ↔ token.sequence.marker = .escape := by
  obtain ⟨_, before, after, same, start⟩ := mem_tokens_iff.mp member
  have first : (bytes text)[token.start]? = (bytes (token.text ++ after))[0]? := by
    rw [same, start, bytes_append, List.getElem?_append_right (by simp)]
    simp
  rw [first]
  obtain ⟨offset, marker, parameters⟩ := token
  cases marker with
  | escape => exact iff_of_true rfl rfl
  | literal capital =>
      rw [bytes_append, Token.text, Sequence.render, bytes_append, bytes_append,
        ByteScan.literal_bytes]
      exact iff_of_false (fun same => absurd (Option.some.inj same) (by decide))
        fun impossible => by cases impossible

/-- The tokens of a text are given by the grammar of sequences. -/
theorem tokens_grammar (literals : Bool) (text : Text) :
    (∀ start stop, (∃ token ∈ text.tokens literals, token.range = ⟨start, stop⟩) ↔
      stop ≤ text.size ∧ ∃ (marker : Marker) (parameters : Text),
        (marker = .escape ∨ literals = true) ∧
        (∀ char ∈ parameters, char.isDigit = true ∨ char = ';') ∧
        (bytes text).extract start stop =
          bytes (marker.render ++ '[' :: parameters ++ ['m'])) ∧
      (text.tokens literals).Pairwise (fun earlier later =>
        earlier.start < later.start ∧ earlier.stop ≤ later.start) ∧
      (∀ token ∈ text.tokens literals, ∃ (marker : Marker) (parameters : Text),
        text.slice? token.start token.stop =
          some (marker.render ++ '[' :: parameters ++ ['m']) ∧
        Code.join token.codes = parameters ∧
        (∀ code ∈ token.codes, ';' ∉ code) ∧
        (parameters = [] → token.codes = [[]])) ∧
      text.tokens false =
        (text.tokens true).filter (fun token => (bytes text)[token.start]? = some 0x1b) ∧
      ByteScan.sequences ⟨literals, text⟩ =
        .ok ((text.tokens literals).map fun token => (token.range, token.codes)) := by
  refine ⟨fun start stop => ⟨?_, ?_⟩, ?_, ?_, ?_, ?_⟩
  · rintro ⟨token, member, range⟩
    obtain ⟨admitted, before, after, same, start⟩ := mem_tokens_iff.mp member
    obtain ⟨rfl, rfl⟩ := ByteRange.mk.inj range
    obtain ⟨inside, extracted⟩ :=
      (extract_bytes_iff (Sequence.render_ascii admitted) (Sequence.render_ne_nil _)).mpr
        ⟨before, after, same, start, rfl⟩
    obtain ⟨counts, allowed⟩ := Sequence.isAdmitted_mk_iff.mp admitted
    exact ⟨inside, token.sequence.marker, token.sequence.parameters, counts, allowed,
      extracted⟩
  · rintro ⟨inside, marker, parameters, counts, allowed, extracted⟩
    have admitted := Sequence.isAdmitted_mk_iff.mpr ⟨counts, allowed⟩
    obtain ⟨before, after, same, rfl, rfl⟩ :=
      (extract_bytes_iff (Sequence.render_ascii admitted) (Sequence.render_ne_nil _)).mp
        ⟨inside, extracted⟩
    exact ⟨⟨size before, ⟨marker, parameters⟩⟩,
      mem_tokens_iff.mpr ⟨admitted, before, after, same, rfl⟩, rfl⟩
  · refine (text.tokens_pairwise literals).imp fun {earlier later} ordered => ⟨?_, ordered⟩
    exact Nat.lt_of_lt_of_le earlier.start_lt_stop ordered
  · intro token member
    refine ⟨token.sequence.marker, token.sequence.parameters,
      slice?_of_mem_tokens member, Code.join_split _, Code.semicolon_notMem_split _, ?_⟩
    intro empty
    rw [Token.codes, Sequence.codes, empty]
    rfl
  · rw [tokens_false]
    apply List.filter_congr
    intro token member
    rw [decide_eq_decide]
    exact (getElem?_start member).symm
  · exact ByteScan.sequences_eq literals text

end Text

end LogTint
