import LogTint.Proofs.Cursors
import Mathlib.Data.List.Infix

/-!
# Detecting markers

Before a host offers what only makes sense for texts with sequences, it asks whether a text
holds any marker.  The answer comes from a search for the spellings of a marker, while a scan
of bytes looks at one offset at a time.  Both recognize the same: a marker among the bytes
begins and ends between characters, so it is one of the spellings.  A text without a marker
has no token, and all passes leave it alone.
-/

namespace LogTint

/-! ## Parts of a text -/

namespace Text

variable {text part : Text}

theorem contains_iff : text.contains part = true ↔ part <:+: text := by
  induction text with
  | nil => simp [contains]
  | cons char rest induction =>
      rw [contains, Bool.or_eq_true, induction, List.isPrefixOf_iff_prefix,
        List.infix_cons_iff]

/-- An ASCII text is a part of a text exactly if its bytes are a part of the bytes. -/
theorem infix_bytes_iff (ascii : ∀ char ∈ part, char.toNat < 128) (nonempty : part ≠ []) :
    bytes part <:+: bytes text ↔ part <:+: text := by
  constructor
  · rintro ⟨left, right, same⟩
    rw [List.append_assoc] at same
    obtain ⟨before, after, split, _, _⟩ := (bytes_eq_append_iff ascii nonempty).mp same.symm
    exact ⟨before, after, by rw [split, List.append_assoc]⟩
  · rintro ⟨before, after, rfl⟩
    exact ⟨bytes before, bytes after, by simp⟩

/-- A marker is looked for by its spellings. -/
theorem containsMarker_iff :
    text.containsMarker = true ↔ ∃ marker : Marker, marker.render <:+: text := by
  rw [containsMarker, Bool.or_eq_true, Bool.or_eq_true, contains_iff,
    contains_iff, List.elem_iff, ← List.singleton_infix_iff]
  constructor
  · rintro ((escape | capital) | small)
    · exact ⟨.escape, escape⟩
    · exact ⟨.literal true, capital⟩
    · exact ⟨.literal false, small⟩
  · rintro ⟨marker, found⟩
    match marker with
    | .escape => exact .inl (.inl found)
    | .literal true => exact .inl (.inr found)
    | .literal false => exact .inr found

/-- The search may as well be one among the bytes. -/
theorem containsMarker_iff_bytes :
    text.containsMarker = true ↔ ∃ marker : Marker, bytes marker.render <:+: bytes text := by
  rw [containsMarker_iff]
  refine exists_congr fun marker => (infix_bytes_iff marker.render_ascii ?_).symm
  obtain ⟨head, tail, rendered, _⟩ := marker.render_eq_cons
  rw [rendered]
  exact List.cons_ne_nil head tail

end Text

/-! ## Markers at an offset -/

namespace ByteScan

variable {scan : ByteScan} {position : Nat}

/-- Where a byte stands that is a character of its own, the text can be split. -/
theorem exists_split_of_byte (char : Char) (ascii : char.toNat < 128)
    (found : scan.bytes[position]? = some (UInt8.ofNat char.toNat)) :
    ∃ before rest, scan.text = before ++ rest ∧ before.size = position := by
  obtain ⟨inside, byte⟩ := List.getElem?_eq_some_iff.mp found
  have parts : scan.text.bytes = scan.bytes.take position ++
      (String.utf8EncodeChar char ++ scan.bytes.drop (position + 1)) := by
    rw [Text.encode_ascii ascii, ← byte, List.singleton_append, ← List.drop_eq_getElem_cons,
      List.take_append_drop]
    rfl
  obtain ⟨before, after, split, beforeBytes, _⟩ := Text.exists_char_of_bytes ascii parts
  refine ⟨before, char :: after, split, ?_⟩
  rw [← Text.length_bytes, beforeBytes, List.length_take]
  omega

/-- No marker begins inside a character or past the end. -/
theorem split_or_unmarked (scan : ByteScan) (position : Nat) :
    (∃ before rest, scan.text = before ++ rest ∧ before.size = position) ∨
      scan.markerAt position = .ok none := by
  cases found : scan.bytes[position]? with
  | none =>
      right
      rw [markerAt, found]
      rfl
  | some byte =>
      by_cases escaped : byte = escape
      · subst escaped
        exact .inl (exists_split_of_byte '\x1b' (by decide) found)
      · by_cases spelled : byte = backslash
        · subst spelled
          exact .inl (exists_split_of_byte '\\' (by decide) found)
        · right
          rw [markerAt, found]
          simp only [escaped, spelled, false_and, if_false]
          rfl

/-- Looking for a marker never breaks off, wherever it begins. -/
theorem markerAt_total (scan : ByteScan) (position : Nat) :
    ∃ answer, scan.markerAt position = .ok answer := by
  rcases scan.split_or_unmarked position with ⟨before, rest, split, rfl⟩ | unmarked
  · exact ⟨_, markerAt_eq split⟩
  · exact ⟨none, unmarked⟩

/-- The bytes at an offset are a marker exactly if one that counts stands there in the
text. -/
theorem markerAt_eq_some_iff {length : Nat} :
    scan.markerAt position = .ok (some length) ↔
      ∃ (marker : Marker) (before after : Text), marker.isAdmitted scan.literals = true ∧
        scan.text = before ++ (marker.render ++ after) ∧ before.size = position ∧
        marker.render.size = length := by
  constructor
  · intro marked
    rcases scan.split_or_unmarked position with ⟨before, rest, split, rfl⟩ | unmarked
    · rw [markerAt_eq split] at marked
      obtain ⟨⟨marker, after⟩, read, size⟩ :=
        Option.map_eq_some_iff.mp (Except.ok.inj marked)
      obtain ⟨counts, rfl⟩ := Marker.read?_eq_some_iff.mp read
      exact ⟨marker, before, after, counts, split, rfl, size⟩
    · cases unmarked.symm.trans marked
  · rintro ⟨marker, before, after, counts, split, rfl, rfl⟩
    exact markerAt_of_read? split (Marker.read?_eq_some_iff.mpr ⟨counts, rfl⟩)

end ByteScan

/-! ## Texts without a marker -/

section Unmarked

variable {text : Text}

/-- A token begins with a marker. -/
theorem Text.tokens_eq_nil_of_unmarked (unmarked : text.containsMarker = false)
    (literals : Bool) : text.tokens literals = [] := by
  apply List.eq_nil_iff_forall_not_mem.mpr
  intro token member
  obtain ⟨_, before, after, same, _⟩ := mem_tokens_iff.mp member
  have split : before ++ token.sequence.marker.render ++
      ('[' :: token.sequence.parameters ++ ['m'] ++ after) = text := by
    rw [same, Token.text, Sequence.render]
    simp
  cases unmarked.symm.trans (containsMarker_iff.mpr ⟨_, before, _, split⟩)

/-- A text without tokens is one span in the plain style, unless it is empty. -/
theorem buildSpans_of_tokens_eq_nil (tokenless : text.tokens true = []) :
    buildSpans text = if text = [] then [] else [⟨0, text.size, Style.plain⟩] := by
  have whole : buildSpans text = literalRun 0 text.size Style.plain := by
    simp only [buildSpans, Highlights.compute, HighlightConfig.enabled, tokenless, spansFrom]
  rw [whole, literalRun]
  by_cases empty : text = []
  · rw [if_pos empty, empty]
    rfl
  · rw [if_neg empty, if_pos (Text.size_pos empty)]

end Unmarked

/-- The cheap check is true exactly if at some offset among the bytes a marker begins, as a
scan with both forms of markers recognizes it; it may be thought of as a search among the
characters or among the bytes.  Without a marker there is no token in either setting, all
passes leave the text alone and ask for nothing, and the text is one plain span. -/
theorem Text.containsMarker_faithful (text : Text) :
    (∀ position, ∃ answer, ByteScan.markerAt ⟨true, text⟩ position = .ok answer) ∧
    (text.containsMarker = true ↔
      ∃ position length, ByteScan.markerAt ⟨true, text⟩ position = .ok (some length)) ∧
    (text.containsMarker = true ↔
      ∃ marker : Marker, bytes marker.render <:+: bytes text) ∧
    (text.containsMarker = false →
      (∀ literals, text.tokens literals = [] ∧
        ByteScan.sequences ⟨literals, text⟩ = .ok []) ∧
      strip? text = none ∧ normalizeIndexed? text = none ∧
      (∀ old new, replaceCode? old new text = none) ∧
      (∀ {σ : Type} (replace : Token → StateM σ (Option Text)) (state : σ),
        (rewriteTokensM replace text).run state = (none, state)) ∧
      buildSpans text = if text = [] then [] else [⟨0, text.size, Style.plain⟩]) := by
  refine ⟨ByteScan.markerAt_total _, ?_, containsMarker_iff_bytes, fun unmarked => ?_⟩
  · rw [containsMarker_iff]
    constructor
    · rintro ⟨marker, before, after, same⟩
      have counts : marker.isAdmitted true = true := by
        cases marker <;> rfl
      refine ⟨size before, marker.render.size, ByteScan.markerAt_eq_some_iff.mpr
        ⟨marker, before, after, counts, ?_, rfl, rfl⟩⟩
      rw [← same, List.append_assoc]
    · rintro ⟨position, length, marked⟩
      obtain ⟨marker, before, after, _, split, _⟩ :=
        ByteScan.markerAt_eq_some_iff.mp marked
      exact ⟨marker, before, after, by rw [List.append_assoc]; exact split.symm⟩
  · have tokenless := tokens_eq_nil_of_unmarked unmarked
    have kept (replace : Token → Option Text) : rewriteTokens replace text = none := by
      rw [rewriteTokens_eq_none_iff, tokenless]
      exact fun token impossible => absurd impossible List.not_mem_nil
    refine ⟨fun literals => ⟨tokenless literals, ?_⟩,
      (strip?_eq_none_iff text).mpr (tokenless true), kept _, fun old new => kept _, ?_,
      buildSpans_of_tokens_eq_nil (tokenless true)⟩
    · rw [ByteScan.sequences_eq, tokenless]
      rfl
    · intro σ replace state
      rw [run_rewriteTokensM, tokenless]
      rfl

/-- A wide letter, a marker that the end of the text cuts off, and before it one whose first
letter is a capital. -/
def nearlyMarked : Text :=
  ['é', '\\', 'U', '0', '0', '1', 'B', '[', 'm', '\\', 'u', '0', '0', '1']

theorem Text.containsMarker_faithful_of_nearlyMarked :
    nearlyMarked.containsMarker = false ∧
      (∀ literals, nearlyMarked.tokens literals = []) ∧
      buildSpans nearlyMarked = [⟨0, 15, Style.plain⟩] := by
  have unmarked : nearlyMarked.containsMarker = false := by decide
  obtain ⟨_, _, _, alone⟩ := containsMarker_faithful nearlyMarked
  obtain ⟨tokens, _, _, _, _, spans⟩ := alone unmarked
  exact ⟨unmarked, fun literals => (tokens literals).1, spans⟩

end LogTint
