import LogTint.Proofs.Rewriting
import Mathlib.Data.List.Forall2

/-!
# Groups of a sequence written anew

Replacing one group of a sequence by another writes the groups back as one flat list of
codes.  They are found again as they were unless a 38 or 48 that stood alone has come
to stand before a selector with enough parameters: then no sequence has these groups,
for such a code does not stand alone.
-/

namespace LogTint

/-! ## Groups that are found again -/

/-- Codes that make a 38 or 48 before them an extended color. -/
inductive Completes : List Code → Prop where
  | indexed (index : Code) (after : List Code) : Completes (['5'] :: index :: after)
  | channels (red green blue : Code) (after : List Code) :
      Completes (['2'] :: red :: green :: blue :: after)

/-- No code that could select a color stands alone before codes that complete it. -/
def KeptApart : List (List Code) → Prop
  | [] => True
  | group :: later =>
      (∀ code, group = [code] → (Layer.ofCode? code).isSome = true →
        ¬Completes later.flatten) ∧ KeptApart later

/-- A code that could select a color does not stand alone before codes that complete
it. -/
theorem codeGroups_of_completes {code : Code} {rest : List Code}
    (opens : (Layer.ofCode? code).isSome = true) (completes : Completes rest)
    (later : List (List Code)) : codeGroups (code :: rest) ≠ [code] :: later := by
  obtain ⟨layer, opens⟩ := Option.isSome_iff_exists.mp opens
  cases completes with
  | indexed index after =>
      rw [codeGroups_indexed opens]
      simp
  | channels red green blue after =>
      rw [codeGroups_channels opens]
      simp

/-- Otherwise it does. -/
theorem codeGroups_of_not_completes {code : Code} {rest : List Code}
    (alone : (Layer.ofCode? code).isSome = true → ¬Completes rest) :
    codeGroups (code :: rest) = [code] :: codeGroups rest := by
  apply codeGroups_single
  cases opens : Layer.ofCode? code with
  | none => exact groupLength_of_closed opens
  | some layer =>
      have incomplete := alone (by rw [opens]; rfl)
      apply groupLength_of_truncated
      · rintro index after rfl
        exact incomplete (.indexed index after)
      · rintro red green blue after rfl
        exact incomplete (.channels red green blue after)

/-- Groups are found again in their codes exactly if they are kept apart. -/
theorem codeGroups_flatten_iff {groups : List (List Code)}
    (grouped : ∀ group ∈ groups, CodeGroup group) :
    codeGroups groups.flatten = groups ↔ KeptApart groups := by
  induction groups with
  | nil => simp [codeGroups, KeptApart]
  | cons group later induction =>
      obtain ⟨first, groupedLater⟩ := List.forall_mem_cons.mp grouped
      have inLater := induction groupedLater
      cases first with
      | indexed opens index =>
          simp [codeGroups_indexed opens, KeptApart, inLater]
      | channels opens red green blue =>
          simp [codeGroups_channels opens, KeptApart, inLater]
      | single code =>
          rw [List.flatten_cons, List.singleton_append]
          constructor
          · intro found
            have alone : (Layer.ofCode? code).isSome = true → ¬Completes later.flatten :=
              fun opens completes => codeGroups_of_completes opens completes later found
            rw [codeGroups_of_not_completes alone, List.cons.injEq] at found
            refine ⟨?_, inLater.mp found.2⟩
            rintro other ⟨⟩
            exact alone
          · rintro ⟨alone, apart⟩
            rw [codeGroups_of_not_completes (alone code rfl), inLater.mpr apart]

/-- Groups that are not kept apart are those of no codes. -/
theorem keptApart_of_codeGroups {groups : List (List Code)} {codes : List Code}
    (found : codeGroups codes = groups) : KeptApart groups := by
  obtain ⟨grouped, joined⟩ := codeGroups_spec codes
  rw [found] at grouped joined
  apply (codeGroups_flatten_iff grouped).mp
  rw [joined, found]

/-! ## Groups written with semicolons -/

namespace Code

theorem split_join {codes : List Code} (nonempty : codes ≠ [])
    (apart : ∀ code ∈ codes, ';' ∉ code) : split (join codes) = codes :=
  List.splitOn_intercalate ';' apart nonempty

theorem join_append {left right : List Code} (leftNonempty : left ≠ [])
    (rightNonempty : right ≠ []) : join (left ++ right) = join left ++ ';' :: join right := by
  induction left with
  | nil => exact absurd rfl leftNonempty
  | cons code left induction =>
      cases left with
      | nil =>
          obtain ⟨next, right, rfl⟩ := List.exists_cons_of_ne_nil rightNonempty
          rw [List.singleton_append, join_cons_cons]
          simp [join]
      | cons next left =>
          have later := induction (List.cons_ne_nil next left)
          rw [List.cons_append] at later
          rw [List.cons_append, List.cons_append, join_cons_cons, later, join_cons_cons,
            List.append_assoc, List.cons_append]

/-- Groups joined one by one are joined code by code. -/
theorem join_map_join {groups : List (List Code)} (nonempty : ∀ group ∈ groups, group ≠ []) :
    join (groups.map join) = join groups.flatten := by
  induction groups with
  | nil => rfl
  | cons group later induction =>
      obtain ⟨first, rest⟩ := List.forall_mem_cons.mp nonempty
      have inLater := induction rest
      cases later with
      | nil => simp [join]
      | cons next later =>
          have filled : (next :: later).flatten ≠ [] := by
            simp [rest next List.mem_cons_self]
          rw [List.flatten_cons, join_append first filled, ← inLater, List.map_cons,
            List.map_cons, join_cons_cons]

end Code

/-! ## What is written in the place of a token -/

/-- Whether parameters make up one group. -/
def IsGroup (parameters : Text) : Prop :=
  (∀ char ∈ parameters, Sequence.isParameter char = true) ∧
    codeGroups (Code.split parameters) = [Code.split parameters]

/-- The groups with each that is written as `old` replaced, or removed if nothing is to
take its place. -/
def regroup (old new : Text) (groups : List (List Code)) : List (List Code) :=
  groups.flatMap fun group =>
    if Code.join group = old then (if new = [] then [] else [Code.split new]) else [group]

/-- What comes of a token when the groups written as `old` are replaced. -/
inductive Token.Regrouped (old new : Text) (token : Token) : Text → Prop where
  | kept (absent : ∀ group ∈ codeGroups token.codes, Code.join group ≠ old) :
      token.Regrouped old new token.text
  | removed (present : ∃ group ∈ codeGroups token.codes, Code.join group = old)
      (nothing : regroup old new (codeGroups token.codes) = []) : token.Regrouped old new []
  | replaced (present : ∃ group ∈ codeGroups token.codes, Code.join group = old)
      (something : regroup old new (codeGroups token.codes) ≠ [])
      (sequence : Sequence) (admitted : sequence.isAdmitted true = true)
      (marker : sequence.marker = token.sequence.marker)
      (codes : sequence.codes = (regroup old new (codeGroups token.codes)).flatten)
      (found : KeptApart (regroup old new (codeGroups token.codes)) →
        codeGroups sequence.codes = regroup old new (codeGroups token.codes))
      (merged : ¬KeptApart (regroup old new (codeGroups token.codes)) →
        ∀ other, codeGroups other ≠ regroup old new (codeGroups token.codes)) :
      token.Regrouped old new sequence.render

section Regrouping

variable {old new : Text} {token : Token} {groups : List (List Code)} {group : List Code}

theorem replaceGroups_map_join (old new : Text) (groups : List (List Code)) :
    replaceGroups old new (groups.map Code.join) = (regroup old new groups).map Code.join := by
  rw [replaceGroups, regroup, List.flatMap_map, List.map_flatMap]
  congr 1
  funext group
  by_cases same : Code.join group = old
  · by_cases empty : new = []
    · simp [same, empty]
    · simp [same, empty, Code.join_split]
  · simp [same]

/-- A group is there before, or it is the new one. -/
theorem mem_regroup (member : group ∈ regroup old new groups) :
    group ∈ groups ∨ new ≠ [] ∧ group = Code.split new := by
  obtain ⟨earlier, isEarlier, inside⟩ := List.mem_flatMap.mp member
  split at inside
  case isTrue =>
      split at inside
      case isTrue => cases inside
      case isFalse written => exact .inr ⟨written, List.mem_singleton.mp inside⟩
  case isFalse => exact .inl (List.mem_singleton.mp inside ▸ isEarlier)

theorem codeGroup_of_mem_regroup (fits : new = [] ∨ IsGroup new)
    (member : group ∈ regroup old new (codeGroups token.codes)) : CodeGroup group := by
  rcases mem_regroup member with isGroup | ⟨written, rfl⟩
  · exact (codeGroups_spec token.codes).1 group isGroup
  · have single := (fits.resolve_left written).2
    apply (codeGroups_spec (Code.split new)).1
    rw [single]
    exact List.mem_cons_self

/-- The codes of the groups are runs of digits, as those of a token are. -/
theorem isParameter_of_mem_regroup (fits : new = [] ∨ IsGroup new)
    (admitted : token.sequence.isAdmitted true = true)
    (member : group ∈ regroup old new (codeGroups token.codes)) :
    ∀ code ∈ group, ';' ∉ code ∧ ∀ char ∈ code, Sequence.isParameter char = true := by
  obtain ⟨parameters, allowed, inside⟩ : ∃ parameters : Text,
      (∀ char ∈ parameters, Sequence.isParameter char = true) ∧
        ∀ code ∈ group, code ∈ Code.split parameters := by
    rcases mem_regroup member with isGroup | ⟨written, rfl⟩
    · refine ⟨token.sequence.parameters, (Sequence.isAdmitted_iff.mp admitted).2, ?_⟩
      intro code inGroup
      have inCodes : code ∈ token.codes := by
        rw [← (codeGroups_spec token.codes).2]
        exact List.mem_flatten.mpr ⟨group, isGroup, inGroup⟩
      exact inCodes
    · exact ⟨new, (fits.resolve_left written).1, fun _ => id⟩
  intro code inGroup
  refine ⟨Code.semicolon_notMem_split parameters code (inside code inGroup), ?_⟩
  intro char inCode
  apply allowed
  rw [← Code.join_split parameters]
  exact Code.mem_join_of_mem (inside code inGroup) inCode

/-- The sequence that is written has the codes of the groups. -/
theorem regrouped_replaced (fits : new = [] ∨ IsGroup new)
    (admitted : token.sequence.isAdmitted true = true)
    (present : ∃ group ∈ codeGroups token.codes, Code.join group = old)
    (something : regroup old new (codeGroups token.codes) ≠ []) :
    token.Regrouped old new (Sequence.render ⟨token.sequence.marker,
      Code.join (regroup old new (codeGroups token.codes)).flatten⟩) := by
  have grouped : ∀ group ∈ regroup old new (codeGroups token.codes), CodeGroup group :=
    fun group => codeGroup_of_mem_regroup fits
  have written : ∀ code ∈ (regroup old new (codeGroups token.codes)).flatten,
      ';' ∉ code ∧ ∀ char ∈ code, Sequence.isParameter char = true := by
    intro code member
    obtain ⟨group, isGroup, inGroup⟩ := List.mem_flatten.mp member
    exact isParameter_of_mem_regroup fits admitted isGroup code inGroup
  have filled : (regroup old new (codeGroups token.codes)).flatten ≠ [] := by
    obtain ⟨first, later, groups⟩ := List.exists_cons_of_ne_nil something
    rw [groups] at grouped ⊢
    simp [(grouped first List.mem_cons_self).ne_nil]
  have codes : Sequence.codes ⟨token.sequence.marker,
      Code.join (regroup old new (codeGroups token.codes)).flatten⟩ =
        (regroup old new (codeGroups token.codes)).flatten :=
    Code.split_join filled fun code member => (written code member).1
  refine .replaced present something _ ?_ rfl codes ?_ ?_
  · exact Sequence.isAdmitted_iff.mpr ⟨(Sequence.isAdmitted_iff.mp admitted).1,
      Code.isParameter_join fun code member => (written code member).2⟩
  · intro apart
    rw [codes]
    exact (codeGroups_flatten_iff grouped).mpr apart
  · intro merged other found
    exact merged (keptApart_of_codeGroups found)

/-- What is written in the place of a token is its groups with some replaced. -/
theorem regrouped_getD (fits : new = [] ∨ IsGroup new)
    (admitted : token.sequence.isAdmitted true = true) :
    token.Regrouped old new ((token.replaceGroup? old new).getD token.text) := by
  unfold Token.replaceGroup?
  dsimp only
  rw [replaceGroups_map_join]
  split
  case isFalse absent =>
      refine .kept fun group member same => absent ?_
      exact List.contains_iff_mem.mpr (List.mem_map.mpr ⟨group, member, same⟩)
  case isTrue found =>
      have present : ∃ group ∈ codeGroups token.codes, Code.join group = old :=
        List.mem_map.mp (List.contains_iff_mem.mp found)
      split
      case h_1 nothing => exact .removed present (List.map_eq_nil_iff.mp nothing)
      case h_2 nonempty =>
          have something : regroup old new (codeGroups token.codes) ≠ [] :=
            fun nothing => nonempty (by rw [nothing, List.map_nil])
          rw [Code.join_map_join fun group member =>
            (codeGroup_of_mem_regroup fits member).ne_nil]
          exact regrouped_replaced fits admitted present something

end Regrouping

/-! ## The text around the tokens -/

/-- Replacing a group keeps the runs of a text and writes between them the tokens with
their groups replaced. -/
theorem replaceCode_regroups (text old new : Text) (fits : new = [] ∨ IsGroup new) :
    ∃ parts : List Text, replaceCode old new text = interleave text.runs parts ∧
      List.Forall₂ (Token.Regrouped old new) (text.tokens true) parts := by
  refine ⟨(text.tokens true).map fun token => (token.replaceGroup? old new).getD token.text,
    ?_, ?_⟩
  · have asked : (Scanner.ofText true text).pieces.1.map
        (fun piece : Piece => piece.token.replaceGroup? old new) =
          (text.tokens true).map (Token.replaceGroup? old new) := by
      rw [Text.tokens, Scanner.tokens, List.map_map]
      rfl
    have rewritten : replaceCode old new text =
        splice (Scanner.ofText true text).pieces.1
            ((text.tokens true).map (Token.replaceGroup? old new)) ++
          (Scanner.ofText true text).pieces.2 := by
      rw [← asked]
      exact getD_splice text _
    have length : ((text.tokens true).map (Token.replaceGroup? old new)).length =
        (Scanner.ofText true text).pieces.1.length := by
      rw [List.length_map, Text.tokens, Scanner.tokens, List.length_map]
    have parts : written (text.tokens true)
        ((text.tokens true).map (Token.replaceGroup? old new)) =
          (text.tokens true).map fun token =>
            (token.replaceGroup? old new).getD token.text := by
      rw [written, List.zipWith_map_right, List.zipWith_self]
    rw [rewritten, splice_eq_interleave length, ← parts]
    rfl
  · apply List.forall₂_map_right_iff.mpr
    apply List.forall₂_same.mpr
    intro token member
    exact regrouped_getD fits (Text.mem_tokens_iff.mp member).1

/-- A color selector that stands alone, with a code between it and its parameters. -/
def parted : Text :=
  ['\x1b', '[', '3', '8', ';', '1', ';', '5', ';', '2', 'm', 'x']

theorem isGroup_palette : IsGroup ['4', '8', ';', '5', ';', '9'] := by
  refine ⟨List.all_eq_true.mp (by decide), ?_⟩
  decide +kernel

theorem replaceCode_regroups_of_parted :
    IsGroup ['4', '8', ';', '5', ';', '9'] ∧
      ∃ parts : List Text,
        replaceCode ['1'] ['4', '8', ';', '5', ';', '9'] parted =
          interleave parted.runs parts ∧
        List.Forall₂ (Token.Regrouped ['1'] ['4', '8', ';', '5', ';', '9'])
          (parted.tokens true) parts :=
  ⟨isGroup_palette, replaceCode_regroups parted _ _ (.inr isGroup_palette)⟩

/-- Once nothing is left between a selector and its parameters, they are one group. -/
theorem groups_merged :
    let token : Token := ⟨0, .escape, ['3', '8', ';', '1', ';', '5', ';', '2']⟩
    let left : Sequence := ⟨.escape, ['3', '8', ';', '5', ';', '2']⟩
    parted.tokens true = [token] ∧
      codeGroups token.codes = [[['3', '8']], [['1']], [['5']], [['2']]] ∧
      regroup ['1'] [] (codeGroups token.codes) = [[['3', '8']], [['5']], [['2']]] ∧
      replaceCode ['1'] [] parted = left.render ++ ['x'] ∧
      codeGroups left.codes = [[['3', '8'], ['5'], ['2']]] ∧
      codeGroups left.codes ≠ regroup ['1'] [] (codeGroups token.codes) := by
  decide +kernel

end LogTint
