import LogTint.Proofs.Cursors
import LogTint.Proofs.Regrouping

/-!
# Sequences taken apart and written again

Replacing a group takes the parameters of a sequence apart into codes and the codes into
groups, and writes the groups again behind the marker.  Nothing is lost on the way: a
group replaced by itself gives the text back, and whatever has no such group stays as it
is where it is.
-/

namespace LogTint

/-- The marker of a token is where the token starts, in the form in which it is written. -/
theorem Text.markerAt?_of_mem_tokens {text : Text} {token : Token}
    (member : token ∈ text.tokens true) :
    text.markerAt? token.start = some token.sequence.marker.render := by
  obtain ⟨_, before, after, rfl, start⟩ := mem_tokens_iff.mp member
  obtain ⟨place, marker, parameters⟩ := token
  dsimp only at start ⊢
  subst start
  have behind : (bytes (before ++ (Token.text ⟨size before, marker, parameters⟩ ++ after)))[
      size before]? = (bytes marker.render)[0]? := by
    have filled : 0 < (bytes marker.render).length := by
      cases marker with
      | escape => decide
      | literal capital => cases capital <;> decide
    rw [bytes_append, List.getElem?_append_right (by simp), length_bytes, Nat.sub_self,
      Token.text, Sequence.render]
    simp only [bytes_append, List.append_assoc]
    exact List.getElem?_append_left filled
  have slice (length : Nat) (whole : length = size marker.render) :
      slice? (before ++ (Token.text ⟨size before, marker, parameters⟩ ++ after)) (size before)
        (size before + length) = some marker.render := by
    refine slice?_eq_some_iff.mpr ⟨before, '[' :: parameters ++ ['m'] ++ after, ?_, rfl, ?_⟩
    · simp [Token.text, Sequence.render]
    · rw [whole]
  rw [markerAt?, behind]
  cases marker with
  | escape => exact slice 1 rfl
  | literal capital => cases capital <;> exact slice 6 rfl

namespace Token

/-- A token is kept exactly if none of its groups is written like the one to replace. -/
theorem replaceGroup?_eq_none_iff {old new : Text} {token : Token} :
    token.replaceGroup? old new = none ↔
      ∀ group ∈ codeGroups token.codes, Code.join group ≠ old := by
  unfold replaceGroup?
  dsimp only
  split
  case isTrue found =>
      obtain ⟨group, member, same⟩ := List.mem_map.mp (List.contains_iff_mem.mp found)
      refine iff_of_false ?_ fun absent => absent group member same
      split <;> exact nofun
  case isFalse missing =>
      refine iff_of_true rfl fun group member same => missing ?_
      exact List.contains_iff_mem.mpr (List.mem_map.mpr ⟨group, member, same⟩)

/-- The groups of a token, joined one by one, are its parameters. -/
theorem join_codeGroups (token : Token) :
    Code.join ((codeGroups token.codes).map Code.join) = token.sequence.parameters := by
  obtain ⟨grouped, joined⟩ := codeGroups_spec token.codes
  rw [Code.join_map_join fun group member => (grouped group member).ne_nil, joined, codes,
    Sequence.codes, Code.join_split]

/-- A group replaced by itself is written as it was. -/
theorem replaceGroup?_self {old : Text} (nonempty : old ≠ []) (token : Token) :
    (token.replaceGroup? old old).getD token.text = token.text := by
  have same : replaceGroups old old ((codeGroups token.codes).map Code.join) =
      (codeGroups token.codes).map Code.join := by
    rw [replaceGroups_eq_map nonempty]
    conv_rhs => rw [← List.map_id ((codeGroups token.codes).map Code.join)]
    apply List.map_congr_left
    intro group _
    split
    case isTrue isOld => exact isOld.symm
    case isFalse => rfl
  unfold replaceGroup?
  dsimp only
  rw [same]
  split
  case isFalse => rfl
  case isTrue found =>
      split
      case h_1 empty =>
          rw [empty] at found
          cases found
      case h_2 =>
          rw [join_codeGroups]
          rfl

end Token

/-- A text in which a group is replaced is its runs with one part between them for each
token, the token itself where it is kept. -/
theorem replaceCode_eq_interleave (old new text : Text) :
    replaceCode old new text = interleave text.runs ((text.tokens true).map fun token =>
      (token.replaceGroup? old new).getD token.text) :=
  rewriteTokens_getD text _

/-- Replacing a group by itself gives the text back.  A text is left alone exactly if no
token has the group, and tokens without it and the runs between the tokens are in the
result as they were, in order.  The marker that a rewritten token gets is the one at its
place in the text. -/
theorem replaceCode_lossless (text old new : Text) :
    (old ≠ [] → replaceCode old old text = text) ∧
      (replaceCode? old new text = none ↔ ∀ token ∈ text.tokens true,
        ∀ group ∈ codeGroups token.codes, Code.join group ≠ old) ∧
      text = interleave text.runs ((text.tokens true).map Token.text) ∧
      replaceCode old new text = interleave text.runs ((text.tokens true).map fun token =>
        (token.replaceGroup? old new).getD token.text) ∧
      (∀ token ∈ text.tokens true,
        (∀ group ∈ codeGroups token.codes, Code.join group ≠ old) →
          (token.replaceGroup? old new).getD token.text = token.text) ∧
      ∀ token ∈ text.tokens true,
        text.markerAt? token.start = some token.sequence.marker.render := by
  refine ⟨fun nonempty => ?_, ?_, (interleave_runs text).symm,
    replaceCode_eq_interleave old new text, ?_, fun token => Text.markerAt?_of_mem_tokens⟩
  · calc
      replaceCode old old text
        = interleave text.runs ((text.tokens true).map fun token =>
            (token.replaceGroup? old old).getD token.text) :=
              replaceCode_eq_interleave old old text
      _ = interleave text.runs ((text.tokens true).map Token.text) := by
            simp only [Token.replaceGroup?_self nonempty]
      _ = text := interleave_runs text
  · rw [replaceCode?, rewriteTokens_eq_none_iff]
    simp only [Token.replaceGroup?_eq_none_iff]
  · intro token _ absent
    rw [Token.replaceGroup?_eq_none_iff.mpr absent]
    rfl

/-- A spelled-out marker before an empty code and a color that is cut short, and another
sequence that ends in an empty code. -/
def mixed : Text :=
  ['\\', 'u', '0', '0', '1', 'b', '[', '1', ';', ';', '3', '8', ';', '5', 'm', 'x',
    '\x1b', '[', '3', '1', ';', 'm']

theorem replaceCode_lossless_of_mixed :
    let token : Token := ⟨0, .literal false, ['1', ';', ';', '3', '8', ';', '5']⟩
    let other : Token := ⟨16, .escape, ['3', '1', ';']⟩
    mixed.tokens true = [token, other] ∧ (['1'] : Text) ≠ [] ∧
      replaceCode ['1'] ['1'] mixed = mixed ∧
      (∀ group ∈ codeGroups other.codes, Code.join group ≠ ['1']) ∧
      (other.replaceGroup? ['1'] ['2', '2']).getD other.text = other.text ∧
      replaceCode? ['1'] ['2', '2'] mixed ≠ none := by
  intro token other
  have tokens : mixed.tokens true = [token, other] := by decide +kernel
  have absent : ∀ group ∈ codeGroups other.codes, Code.join group ≠ ['1'] := by decide +kernel
  obtain ⟨_, borrowed, _, _, kept, _⟩ := replaceCode_lossless mixed ['1'] ['2', '2']
  refine ⟨tokens, by decide, (replaceCode_lossless mixed ['1'] ['1']).1 (by decide), absent,
    kept other (by rw [tokens]; simp) absent, ?_⟩
  intro untouched
  have missing := borrowed.mp untouched
  rw [tokens] at missing
  exact missing token List.mem_cons_self [['1']] (by decide +kernel) rfl

end LogTint
