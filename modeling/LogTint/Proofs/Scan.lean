import LogTint.Sgr.Token
import Mathlib.Data.List.TakeDrop

/-!
# What a scan finds

A sequence is admitted by a setting if its marker counts and its parameters
are digits and semicolons.  `Scanned` tells a scan as a relation between a text
and its tokens, one character or one sequence at a time, and the executable
scanner follows it.  No character inside an admitted sequence can open
another, so a scan misses none.
-/

namespace LogTint

namespace Marker

/-- Whether a marker counts where spelled-out markers do or do not. -/
def isAdmitted (literals : Bool) : Marker → Bool
  | .escape => true
  | .literal _ => literals

theorem read?_eq_some_iff {literals : Bool} {text rest : Text} {marker : Marker} :
    read? literals text = some (marker, rest) ↔
      marker.isAdmitted literals = true ∧ text = marker.render ++ rest := by
  constructor
  · intro success
    unfold read? at success
    split at success
    case h_1 =>
        cases success
        exact ⟨rfl, rfl⟩
    case h_2 =>
        obtain ⟨counted, same⟩ := Option.ite_none_right_eq_some.mp success
        cases same
        exact ⟨counted, rfl⟩
    case h_3 =>
        obtain ⟨counted, same⟩ := Option.ite_none_right_eq_some.mp success
        cases same
        exact ⟨counted, rfl⟩
    case h_4 => cases success
  · rintro ⟨admitted, rfl⟩
    match marker with
    | .escape => rfl
    | .literal true =>
        rw [show literals = true from admitted]
        rfl
    | .literal false =>
        rw [show literals = true from admitted]
        rfl

/-- Whether a character may begin a marker. -/
def opens (char : Char) : Bool := char = '\x1b' || char = '\\'

theorem render_eq_cons (marker : Marker) :
    ∃ head tail, marker.render = head :: tail ∧ opens head = true ∧
      ∀ char ∈ tail, opens char = false := by
  match marker with
  | .escape => exact ⟨_, _, rfl, rfl, by simp⟩
  | .literal true => exact ⟨_, _, rfl, rfl, by simp [opens]⟩
  | .literal false => exact ⟨_, _, rfl, rfl, by simp [opens]⟩

end Marker

namespace Sequence

/-- Whether a sequence counts as one: its marker does, and its parameters are
digits and semicolons. -/
def isAdmitted (literals : Bool) (sequence : Sequence) : Bool :=
  sequence.marker.isAdmitted literals && sequence.parameters.all isParameter

variable {literals : Bool} {text rest after : Text} {sequence : Sequence}

theorem isAdmitted_iff :
    sequence.isAdmitted literals = true ↔
      sequence.marker.isAdmitted literals = true ∧
        ∀ char ∈ sequence.parameters, isParameter char = true := by
  simp [isAdmitted]

theorem readBody?_eq_some_iff {parameters : Text} :
    readBody? text = some (parameters, after) ↔
      (∀ char ∈ parameters, isParameter char = true) ∧
        text = '[' :: parameters ++ 'm' :: after := by
  constructor
  · intro success
    unfold readBody? at success
    split at success
    case h_2 => cases success
    case h_1 rest =>
        split at success
        case h_2 => cases success
        case h_1 dropped =>
            cases success
            refine ⟨List.all_eq_true.mp List.all_takeWhile, ?_⟩
            rw [List.cons_append, ← dropped, List.takeWhile_append_dropWhile]
  · rintro ⟨allowed, rfl⟩
    have final : isParameter 'm' = false := by decide
    simp only [readBody?, List.cons_append,
      List.dropWhile_append_of_pos allowed, List.takeWhile_append_of_pos allowed,
      List.dropWhile_cons, List.takeWhile_cons, final]
    simp

/-- A text is read as a sequence exactly if it begins with one that counts. -/
theorem read?_eq_some_iff :
    read? literals text = some (sequence, after) ↔
      sequence.isAdmitted literals = true ∧ text = sequence.render ++ after := by
  simp only [read?, Option.bind_eq_some_iff, Option.map_eq_some_iff, Prod.exists,
    Marker.read?_eq_some_iff, readBody?_eq_some_iff, Prod.mk.injEq]
  constructor
  · rintro ⟨marker, rest, ⟨counts, rfl⟩, parameters, final, ⟨allowed, rfl⟩, rfl, rfl⟩
    exact ⟨isAdmitted_iff.mpr ⟨counts, allowed⟩, by simp [render]⟩
  · rintro ⟨admitted, rfl⟩
    obtain ⟨counts, allowed⟩ := isAdmitted_iff.mp admitted
    exact ⟨sequence.marker, _, ⟨counts, by simp [render]⟩, sequence.parameters, _,
      ⟨allowed, rfl⟩, rfl, rfl⟩

/-- Only the first character of a sequence may begin a marker. -/
theorem render_eq_cons (admitted : sequence.isAdmitted literals = true) :
    ∃ head tail, sequence.render = head :: tail ∧ Marker.opens head = true ∧
      ∀ char ∈ tail, Marker.opens char = false := by
  obtain ⟨head, tail, rendered, opening, inert⟩ := sequence.marker.render_eq_cons
  refine ⟨head, tail ++ '[' :: sequence.parameters ++ ['m'], ?_, opening, ?_⟩
  · simp [render, rendered]
  · intro char member
    simp only [List.mem_append, List.mem_cons, List.not_mem_nil, or_false] at member
    rcases member with (early | rfl | parameter) | rfl
    · exact inert char early
    · decide
    · have allowed := (isAdmitted_iff.mp admitted).2 char parameter
      apply Bool.eq_false_iff.mpr
      intro opens
      simp only [Marker.opens, Bool.or_eq_true, decide_eq_true_eq] at opens
      rcases opens with rfl | rfl
      · revert allowed
        decide
      · revert allowed
        decide
    · decide

theorem render_ne_nil (sequence : Sequence) : sequence.render ≠ [] := by
  simp [render]

/-- A sequence that counts begins at the start of another or after its end. -/
theorem append_eq_append {first second : Sequence} {before left right : Text}
    (firstAdmitted : first.isAdmitted literals = true)
    (secondAdmitted : second.isAdmitted literals = true)
    (same : first.render ++ left = before ++ (second.render ++ right)) :
    before = [] ∧ first = second ∧ left = right ∨
      ∃ between, before = first.render ++ between ∧
        left = between ++ (second.render ++ right) := by
  rcases List.append_eq_append_iff.mp same with
    ⟨between, long, short⟩ | ⟨between, short, long⟩
  · exact .inr ⟨between, long, short⟩
  · obtain ⟨head, tail, rendered, _, inert⟩ := render_eq_cons firstAdmitted
    obtain ⟨other, others, renderedOther, opening, _⟩ := render_eq_cons secondAdmitted
    cases before with
    | nil =>
        refine .inl ⟨rfl, ?_⟩
        have readFirst : read? literals (first.render ++ left) = some (first, left) :=
          read?_eq_some_iff.mpr ⟨firstAdmitted, rfl⟩
        have readSecond : read? literals (first.render ++ left) = some (second, right) :=
          read?_eq_some_iff.mpr ⟨secondAdmitted, same⟩
        rw [readFirst] at readSecond
        cases readSecond
        exact ⟨rfl, rfl⟩
    | cons start before =>
        cases between with
        | nil =>
            refine .inr ⟨[], ?_, ?_⟩
            · simpa using short.symm
            · simpa using long.symm
        | cons char between =>
            -- The second sequence would begin inside the first.
            rw [renderedOther, List.cons_append, List.cons_append,
              List.cons.injEq] at long
            rw [rendered, List.cons_append, List.cons.injEq] at short
            have inside : char ∈ tail := by
              rw [short.2]
              exact List.mem_append_right _ List.mem_cons_self
            rw [long.1] at opening
            cases (inert char inside).symm.trans opening

end Sequence

/-- A scan of a text that begins at an offset yields these tokens. -/
inductive Scanned (literals : Bool) : Nat → Text → List Token → Prop where
  | nil (offset : Nat) : Scanned literals offset [] []
  | skip {offset : Nat} {char : Char} {rest : Text} {tokens : List Token} :
      Sequence.read? literals (char :: rest) = none →
      Scanned literals (offset + char.utf8Size) rest tokens →
      Scanned literals offset (char :: rest) tokens
  | take {offset : Nat} {sequence : Sequence} {after : Text} {tokens : List Token} :
      sequence.isAdmitted literals = true →
      Scanned literals (offset + sequence.render.size) after tokens →
      Scanned literals offset (sequence.render ++ after)
        (⟨offset, sequence⟩ :: tokens)

namespace Scanned

variable {literals : Bool} {offset : Nat} {text rest after : Text}
  {tokens : List Token}

/-- What a search for the first sequence skips yields no token. -/
theorem of_find? {before : Text} {sequence : Sequence}
    (found : Sequence.find? literals text = some (before, sequence, after))
    (later : Scanned literals (offset + before.size + sequence.render.size) after tokens) :
    Scanned literals offset text (⟨offset + before.size, sequence⟩ :: tokens) := by
  induction text generalizing offset before with
  | nil => cases found
  | cons char rest induction =>
      unfold Sequence.find? at found
      split at found
      case h_1 first remaining opened =>
          cases found
          obtain ⟨admitted, same⟩ := Sequence.read?_eq_some_iff.mp opened
          rw [same]
          exact .take admitted later
      case h_2 closed =>
          obtain ⟨⟨earlier, other, remaining⟩, foundLater, same⟩ :=
            Option.map_eq_some_iff.mp found
          cases same
          refine .skip closed ?_
          simp only [Text.size_cons, ← Nat.add_assoc] at later ⊢
          exact induction foundLater later

theorem of_find?_none (missing : Sequence.find? literals text = none) :
    Scanned literals offset text [] := by
  induction text generalizing offset with
  | nil => exact .nil offset
  | cons char rest induction =>
      unfold Sequence.find? at missing
      split at missing
      case h_1 => cases missing
      case h_2 closed =>
          exact .skip closed (induction (Option.map_eq_none_iff.mp missing))

end Scanned

namespace Scanner

variable {scanner after : Scanner} {piece : Piece}

theorem pieces_of_next (stepped : scanner.next = (some piece, after)) :
    scanner.pieces = (piece :: after.pieces.1, after.pieces.2) := by
  rw [pieces]
  split
  case h_1 found =>
      cases stepped.symm.trans found
      rfl
  case h_2 found => cases stepped.symm.trans found

theorem pieces_of_next_none (stepped : scanner.next = (none, after)) :
    scanner.pieces = ([], scanner.rest) := by
  rw [pieces]
  split
  case h_1 found => cases stepped.symm.trans found
  case h_2 => rfl

/-- The scanner yields the tokens of a scan. -/
theorem scanned (scanner : Scanner) :
    Scanned scanner.literals scanner.offset scanner.rest scanner.tokens := by
  induction scanner using pieces.induct with
  | case1 scanner piece after stepped later tail rest induction =>
      rw [tokens, pieces_of_next stepped]
      unfold next at stepped
      split at stepped
      case h_1 found =>
          cases stepped
          exact .of_find? found induction
      case h_2 => cases stepped
  | case2 scanner after stepped =>
      rw [tokens, pieces_of_next_none stepped]
      unfold next at stepped
      split at stepped
      case h_1 => cases stepped
      case h_2 missing => exact .of_find?_none missing

end Scanner

theorem Text.seek_zero (base : Nat) (text : Text) : Text.seek 0 base text = (base, text) := by
  cases text with
  | nil => rfl
  | cons char rest => simp [Text.seek]

/-- The tokens of a text are those of a scan from its beginning. -/
theorem Text.scanned (literals : Bool) (text : Text) :
    Scanned literals 0 text (text.tokens literals) := by
  have scan := (Scanner.ofText literals text).scanned
  simpa [Scanner.ofText, Scanner.startingAt, Text.seek_zero, Text.tokens] using scan

namespace Scanned

variable {literals : Bool} {offset : Nat} {text : Text} {tokens : List Token}
  {token : Token}

/-- A token lies in the text where it was found. -/
theorem sound (scanned : Scanned literals offset text tokens) (member : token ∈ tokens) :
    token.sequence.isAdmitted literals = true ∧
      ∃ before after, text = before ++ (token.text ++ after) ∧
        token.start = offset + before.size := by
  induction scanned with
  | nil => cases member
  | @skip offset char rest tokens closed _ induction =>
      obtain ⟨admitted, before, after, same, start⟩ := induction member
      refine ⟨admitted, char :: before, after, ?_, ?_⟩
      · rw [same, List.cons_append]
      · rw [start, Text.size_cons, Nat.add_assoc]
  | @take offset sequence rest tokens admitted _ induction =>
      rcases List.mem_cons.mp member with rfl | later
      · exact ⟨admitted, [], rest, rfl, rfl⟩
      · obtain ⟨counts, before, after, same, start⟩ := induction later
        refine ⟨counts, sequence.render ++ before, after, ?_, ?_⟩
        · rw [same, List.append_assoc]
        · rw [start, Text.size_append, Nat.add_assoc]

/-- A sequence that lies in the text is found. -/
theorem complete (scanned : Scanned literals offset text tokens) {sequence : Sequence}
    {before after : Text} (admitted : sequence.isAdmitted literals = true)
    (same : text = before ++ (sequence.render ++ after)) :
    ⟨offset + before.size, sequence⟩ ∈ tokens := by
  induction scanned generalizing before with
  | nil =>
      have empty := List.append_eq_nil_iff.mp same.symm
      exact absurd (List.append_eq_nil_iff.mp empty.2).1 sequence.render_ne_nil
  | @skip offset char rest tokens closed _ induction =>
      cases before with
      | nil =>
          have opened := Sequence.read?_eq_some_iff.mpr ⟨admitted, same⟩
          cases closed.symm.trans opened
      | cons start before =>
          obtain ⟨rfl, sameRest⟩ := List.cons.inj same
          rw [Text.size_cons, ← Nat.add_assoc]
          exact induction sameRest
  | @take offset first rest tokens firstAdmitted _ induction =>
      rcases Sequence.append_eq_append firstAdmitted admitted same with
        ⟨rfl, rfl, _⟩ | ⟨between, rfl, sameRest⟩
      · exact List.mem_cons_self
      · rw [Text.size_append, ← Nat.add_assoc]
        exact List.mem_cons_of_mem _ (induction sameRest)

/-- Tokens lie one after the other between the offset and the end of the text. -/
theorem bounds (scanned : Scanned literals offset text tokens) :
    (∀ token ∈ tokens, offset ≤ token.start ∧ token.stop ≤ offset + text.size) ∧
      tokens.Pairwise fun earlier later => earlier.stop ≤ later.start := by
  induction scanned with
  | nil => simp
  | @skip offset char rest tokens _ _ induction =>
      refine ⟨fun token member => ?_, induction.2⟩
      have inside := induction.1 token member
      rw [Text.size_cons]
      omega
  | @take offset sequence rest tokens _ _ induction =>
      constructor
      · intro token member
        rw [Text.size_append]
        rcases List.mem_cons.mp member with rfl | later
        · simp only [Token.stop, Token.text]
          omega
        · have inside := induction.1 token later
          omega
      · refine List.pairwise_cons.mpr ⟨fun token later => ?_, induction.2⟩
        exact (induction.1 token later).1

/-- The tokens of a text are known from the sequences that lie in it. -/
theorem mem_iff (scanned : Scanned literals offset text tokens) :
    token ∈ tokens ↔ token.sequence.isAdmitted literals = true ∧
      ∃ before after, text = before ++ (token.text ++ after) ∧
        token.start = offset + before.size := by
  constructor
  · exact scanned.sound
  · rintro ⟨admitted, before, after, same, start⟩
    have found := scanned.complete admitted same
    rwa [← start] at found

end Scanned

theorem Token.start_lt_stop (token : Token) : token.start < token.stop := by
  have positive := Text.size_pos token.sequence.render_ne_nil
  simp only [stop, text]
  omega

namespace Text

variable {literals : Bool} {text : Text} {token : Token}

theorem mem_tokens_iff :
    token ∈ text.tokens literals ↔ token.sequence.isAdmitted literals = true ∧
      ∃ before after, text = before ++ (token.text ++ after) ∧
        token.start = size before := by
  simpa using (text.scanned literals).mem_iff

theorem stop_le_size (member : token ∈ text.tokens literals) : token.stop ≤ text.size := by
  simpa using ((text.scanned literals).bounds.1 token member).2

theorem tokens_pairwise (literals : Bool) (text : Text) :
    (text.tokens literals).Pairwise fun earlier later => earlier.stop ≤ later.start :=
  (text.scanned literals).bounds.2

theorem nodup_of_ordered {tokens : List Token}
    (ordered : tokens.Pairwise fun earlier later => earlier.stop ≤ later.start) :
    tokens.Nodup := by
  refine ordered.imp ?_
  rintro token other before rfl
  have positive := token.start_lt_stop
  omega

/-- Tokens that lie in order are known from which tokens they are. -/
theorem tokens_ext {tokens others : List Token}
    (ordered : tokens.Pairwise fun earlier later => earlier.stop ≤ later.start)
    (othersOrdered : others.Pairwise fun earlier later => earlier.stop ≤ later.start)
    (sameMembers : ∀ token, token ∈ tokens ↔ token ∈ others) : tokens = others := by
  refine List.Perm.eq_of_pairwise ?_ ordered othersOrdered
    ((List.perm_ext_iff_of_nodup (nodup_of_ordered ordered)
      (nodup_of_ordered othersOrdered)).mpr sameMembers)
  intro left right _ _ before after
  have leftPositive := left.start_lt_stop
  have rightPositive := right.start_lt_stop
  omega

/-- Without spelled-out markers exactly the sequences with another marker are
left. -/
theorem tokens_false (text : Text) :
    text.tokens false =
      (text.tokens true).filter fun token => token.sequence.marker = .escape := by
  apply tokens_ext (text.tokens_pairwise false) ((text.tokens_pairwise true).filter _)
  intro token
  rw [List.mem_filter, mem_tokens_iff, mem_tokens_iff]
  cases marker : token.sequence.marker <;>
    simp [Sequence.isAdmitted, Marker.isAdmitted, marker]

end Text

end LogTint
