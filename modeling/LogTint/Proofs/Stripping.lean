import LogTint.Proofs.Rewriting

/-!
# What stripping leaves

Stripping takes out the sequences that a text has and joins the literal runs between
them.  No run holds a sequence, so the sequences of the stripped text are those that
have formed over a seam: a run ends in the beginning of one, and the runs after it
finish what the run has begun.
-/

namespace LogTint

/-- No sequence lies in a literal text. -/
theorem Text.IsLiteral.ne_append {literals : Bool} {text before after : Text}
    {sequence : Sequence} (literal : text.IsLiteral literals)
    (admitted : sequence.isAdmitted literals = true) :
    text ≠ before ++ (sequence.render ++ after) := by
  intro same
  have scanned : Scanned literals 0 text [] := .of_find?_none literal
  cases scanned.complete admitted same

theorem Woven.literal_runs {literals : Bool} {offset : Nat} {text tail : Text}
    {pieces : List Piece} (woven : Woven literals offset text pieces tail) :
    ∀ run ∈ pieces.map (·.before) ++ [tail], run.IsLiteral literals := by
  induction woven with
  | tail literal => exact List.forall_mem_singleton.mpr literal
  | piece literal _ _ induction => exact List.forall_mem_cons.mpr ⟨literal, induction⟩

/-! ## Sequences over a seam -/

/-- A run ends in the beginning of a sequence that the runs after it finish.  Where the
runs are joined the sequence starts at one offset and the run ends at the other. -/
inductive Spliced (runs : List Text) (sequence : Sequence) : Nat → Nat → Prop where
  | intro {earlier later : List Text} {before begun missing after : Text}
      (parts : runs = earlier ++ (before ++ begun) :: later)
      (finished : later.flatten = missing ++ after)
      (sequenceParts : sequence.render = begun ++ missing)
      (begins : begun ≠ []) (lacks : missing ≠ []) :
      Spliced runs sequence (Text.size earlier.flatten + before.size)
        (Text.size earlier.flatten + before.size + begun.size)

namespace Spliced

variable {runs : List Text} {sequence : Sequence} {start seam : Nat}

theorem cons (spliced : Spliced runs sequence start seam) (first : Text) :
    Spliced (first :: runs) sequence (first.size + start) (first.size + seam) := by
  cases spliced with
  | @intro earlier later before begun missing after parts finished sequenceParts begins lacks =>
      have longer : Text.size (first :: earlier).flatten =
          first.size + Text.size earlier.flatten := by
        rw [List.flatten_cons, Text.size_append]
      have longerParts : first :: runs = (first :: earlier) ++ (before ++ begun) :: later := by
        rw [parts, List.cons_append]
      have moved := Spliced.intro longerParts finished sequenceParts begins lacks
      rwa [longer, Nat.add_assoc first.size, Nat.add_assoc first.size] at moved

theorem bounds (spliced : Spliced runs sequence start seam) :
    start < seam ∧ seam < start + sequence.render.size := by
  cases spliced with
  | intro _ _ sequenceParts begins lacks =>
      have begunSize := Text.size_pos begins
      have missingSize := Text.size_pos lacks
      rw [sequenceParts, Text.size_append]
      omega

/-- A sequence over a seam lies in the joined runs. -/
theorem exists_append (spliced : Spliced runs sequence start seam) :
    ∃ before after, runs.flatten = before ++ (sequence.render ++ after) ∧
      start = Text.size before := by
  cases spliced with
  | @intro earlier later before begun missing after parts finished sequenceParts _ _ =>
      refine ⟨earlier.flatten ++ before, after, ?_, (Text.size_append _ _).symm⟩
      simp [parts, finished, sequenceParts]

/-- A sequence in joined literal runs lies over the end of one of them. -/
theorem of_append {before after : Text} (literal : ∀ run ∈ runs, run.IsLiteral true)
    (admitted : sequence.isAdmitted true = true)
    (same : runs.flatten = before ++ (sequence.render ++ after)) :
    ∃ seam, Spliced runs sequence before.size seam := by
  induction runs generalizing before with
  | nil =>
      have empty := (List.append_eq_nil_iff.mp same.symm).2
      exact absurd (List.append_eq_nil_iff.mp empty).1 sequence.render_ne_nil
  | cons run runs induction =>
      obtain ⟨literalRun, literalLater⟩ := List.forall_mem_cons.mp literal
      rw [List.flatten_cons] at same
      rcases List.append_eq_append_iff.mp same with
        ⟨gap, rfl, laterSame⟩ | ⟨begun, runSame, rest⟩
      · obtain ⟨seam, spliced⟩ := induction literalLater laterSame
        rw [Text.size_append]
        exact ⟨run.size + seam, spliced.cons run⟩
      · rcases List.append_eq_append_iff.mp rest with
          ⟨gap, begunSame, _⟩ | ⟨missing, sequenceSame, laterSame⟩
        · -- The sequence would lie in the run.
          rw [begunSame] at runSame
          exact absurd runSame (literalRun.ne_append admitted)
        · by_cases begins : begun = []
          · subst begins
            rw [List.nil_append] at sequenceSame
            have atStart : runs.flatten = [] ++ (sequence.render ++ after) :=
              sequenceSame ▸ laterSame
            obtain ⟨seam, spliced⟩ := induction literalLater atStart
            rw [List.append_nil] at runSame
            exact ⟨run.size + seam, runSame ▸ spliced.cons run⟩
          · have lacks : missing ≠ [] := by
              rintro rfl
              rw [List.append_nil] at sequenceSame
              have whole : run = before ++ (sequence.render ++ []) := by
                rw [runSame, sequenceSame, List.append_nil]
              exact literalRun.ne_append admitted whole
            have parts : run :: runs = [] ++ (before ++ begun) :: runs := by
              rw [runSame, List.nil_append]
            have spliced := Spliced.intro parts laterSame sequenceSame begins lacks
            rw [List.flatten_nil, Text.size_nil, Nat.zero_add] at spliced
            exact ⟨_, spliced⟩

end Spliced

/-- The tokens of a stripped text are the sequences over its seams. -/
theorem mem_tokens_strip_iff {text : Text} {token : Token} :
    token ∈ (strip text).tokens true ↔ token.sequence.isAdmitted true = true ∧
      ∃ seam, Spliced text.runs token.sequence token.start seam := by
  rw [Text.mem_tokens_iff, strip_eq_flatten_runs]
  constructor
  · rintro ⟨admitted, before, after, same, start⟩
    rw [start]
    exact ⟨admitted, Spliced.of_append (text.woven true).literal_runs admitted same⟩
  · rintro ⟨admitted, seam, spliced⟩
    exact ⟨admitted, spliced.exists_append⟩

/-! ## Stripping twice -/

/-- Every token makes a text longer than its runs. -/
theorem Woven.size_runs {literals : Bool} {offset : Nat} {text tail : Text}
    {pieces : List Piece} (woven : Woven literals offset text pieces tail) :
    Text.size (pieces.map (·.before) ++ [tail]).flatten + pieces.length ≤ text.size := by
  induction woven with
  | tail => simp
  | @piece offset before rest tail sequence later _ _ _ induction =>
      have positive := Text.size_pos sequence.render_ne_nil
      simp only [List.map_cons, List.cons_append, List.flatten_cons, Text.size_append,
        List.length_cons]
      omega

theorem strip?_eq_none_iff (text : Text) : strip? text = none ↔ text.tokens true = [] := by
  unfold strip? Text.tokens Scanner.tokens
  split
  case h_1 tail parts => simp [parts]
  case h_2 pieces tail nonempty parts =>
      rw [parts, List.map_eq_nil_iff]
      exact iff_of_false nofun fun none => nonempty none

theorem strip_eq_self_iff (text : Text) : strip text = text ↔ text.tokens true = [] := by
  constructor
  · intro same
    have longer := (text.woven true).size_runs
    have runs : strip text = ((Scanner.ofText true text).pieces.1.map (·.before) ++
        [(Scanner.ofText true text).pieces.2]).flatten := strip_eq_flatten_runs text
    rw [← runs, same] at longer
    have none : (Scanner.ofText true text).pieces.1 = [] :=
      List.length_eq_zero_iff.mp (by omega)
    rw [Text.tokens, Scanner.tokens, none, List.map_nil]
  · intro none
    rw [strip, (strip?_eq_none_iff text).mpr none]
    rfl

/-- Stripping leaves just the sequences that form where a sequence was taken out, and a
second pass leaves the text alone exactly if there are none. -/
theorem strip_leaves (text : Text) :
    (∀ token, token ∈ (strip text).tokens true ↔
      token.sequence.isAdmitted true = true ∧
        ∃ seam, token.start < seam ∧ seam < token.stop ∧
          Spliced text.runs token.sequence token.start seam) ∧
      ((strip text).tokens true = [] ↔ strip (strip text) = strip text) ∧
      ((strip text).tokens true = [] ↔ strip? (strip text) = none) := by
  refine ⟨fun token => ?_, (strip_eq_self_iff _).symm, (strip?_eq_none_iff _).symm⟩
  rw [mem_tokens_strip_iff]
  constructor
  · rintro ⟨admitted, seam, spliced⟩
    exact ⟨admitted, seam, spliced.bounds.1, spliced.bounds.2, spliced⟩
  · rintro ⟨admitted, seam, _, _, spliced⟩
    exact ⟨admitted, seam, spliced⟩

/-- An unfinished sequence before a sequence, and what would finish it after. -/
def nested : Text := ['\x1b', '[', '\x1b', '[', '0', 'm', '1', 'm', 'x']

/-- Once the sequence in between is taken out, the parts around it are a sequence. -/
theorem strip_uncovers :
    (strip nested).tokens true = [⟨0, .escape, ['1']⟩] ∧
      strip (strip nested) = ['x'] ∧ strip (strip nested) ≠ strip nested ∧
      strip? (strip nested) ≠ none := by
  decide +kernel

end LogTint
