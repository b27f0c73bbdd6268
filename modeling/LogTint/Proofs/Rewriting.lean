import LogTint.Highlight.Highlights
import LogTint.Proofs.Grammar
import LogTint.Proofs.Rendition
import LogTint.Proofs.Weave
import LogTint.Rewrite.Normalize
import LogTint.Rewrite.Replace
import LogTint.Rewrite.Strip
import LogTint.Statistics

/-!
# Rewriting sequences into sequences

A pass that puts sequences in the place of sequences leaves the document as it
was.  The text that it writes is woven from the same literal runs and from what
it wrote in between, so the sequences are found again one by one, what is left
without them is the same, and as long as the codes are the same so are the
styles.
-/

namespace LogTint

/-! ## What the runs of a text tell -/

theorem Sequence.newline_notMem_render {literals : Bool} {sequence : Sequence}
    (admitted : sequence.isAdmitted literals = true) : '\n' ∉ sequence.render := by
  intro member
  simp only [render, List.mem_append, List.mem_cons, List.not_mem_nil, or_false]
    at member
  rcases member with (marker | bracket | parameter) | final
  · revert marker
    cases sequence.marker with
    | escape => decide
    | literal capital => cases capital <;> decide
  · cases bracket
  · cases (isAdmitted_iff.mp admitted).2 _ parameter
  · cases final

/-- The runs of text before the tokens and after the last of them. -/
def Text.runs (text : Text) : List Text :=
  let (pieces, tail) := (Scanner.ofText true text).pieces
  pieces.map (·.before) ++ [tail]

theorem strip_eq_flatten_runs (text : Text) : strip text = text.runs.flatten := by
  unfold strip strip? Text.runs
  have woven := Text.woven true text
  match parts : (Scanner.ofText true text).pieces with
  | ([], tail) =>
      rw [parts] at woven
      cases woven
      simp
  | (piece :: later, tail) => simp [List.flatMap_def]

/-- Line breaks are in the runs, for sequences have none. -/
theorem Woven.count_newline {literals : Bool} {offset : Nat} {text tail : Text}
    {pieces : List Piece} (woven : Woven literals offset text pieces tail) :
    text.count '\n' = (pieces.map (·.before) ++ [tail]).flatten.count '\n' := by
  induction woven with
  | tail => simp
  | piece _ admitted _ induction =>
      have none := List.count_eq_zero.mpr (Sequence.newline_notMem_render admitted)
      simp [induction, none]

theorem Text.count_newline (text : Text) :
    text.count '\n' = text.runs.flatten.count '\n' :=
  (text.woven true).count_newline

/-- The lines that tokens begin on are known from the runs. -/
theorem visit_foldl_congr {left right : List Piece} (progress : LineCount)
    (same : left.map (·.before) = right.map (·.before)) :
    left.foldl LineCount.visit progress = right.foldl LineCount.visit progress := by
  induction left generalizing right progress with
  | nil => 
      rw [List.map_nil, eq_comm, List.map_eq_nil_iff] at same
      rw [same]
  | cons piece left induction =>
      cases right with
      | nil => cases same
      | cons other right =>
          obtain ⟨sameBefore, sameLater⟩ := List.cons.inj same
          dsimp only at sameBefore
          have visited : progress.visit piece = progress.visit other := by
            unfold LineCount.visit
            rw [sameBefore]
          rw [List.foldl_cons, List.foldl_cons, visited, induction _ sameLater]

/-! ## The text and style of every span -/

namespace Highlights

/-- The spans as a reader sees them: a text and its style. -/
def styledTexts (highlights : Highlights) (source : Text) : List (Option Text × Style) :=
  highlights.spans.map fun span => (span.text? source, span.style)

end Highlights

/-- A literal run in a style, unless it is empty. -/
def styledRun (run : Text) (style : Style) : List (Option Text × Style) :=
  if run = [] then [] else [(some run, style)]

/-- The literal runs, each in the style that the codes before it have made. -/
def styledRuns (style : Style) : List (Text × List Code) → Text → List (Option Text × Style)
  | [], tail => styledRun tail style
  | (before, codes) :: later, tail =>
      styledRun before style ++ styledRuns (style.apply codes) later tail

theorem styledTexts_literalRun {source before run after : Text} (style : Style)
    (same : source = before ++ (run ++ after)) :
    (literalRun before.size (before.size + run.size) style).map
      (fun span => (span.text? source, span.style)) = styledRun run style := by
  unfold literalRun styledRun
  by_cases empty : run = []
  · simp [empty]
  · have positive := Text.size_pos empty
    have covered : source.slice? before.size (before.size + run.size) = some run :=
      Text.slice?_eq_some_iff.mpr ⟨before, after, same, rfl, rfl⟩
    rw [if_pos (by omega), if_neg empty]
    simp [Span.text?, covered]

/-- The spans cover the runs of the text. -/
theorem Woven.styledTexts {literals : Bool} {offset : Nat} {text tail front : Text}
    {pieces : List Piece} (woven : Woven literals offset text pieces tail)
    (style : Style) (placed : front.size = offset) :
    (spansFrom (front ++ text).size offset style (pieces.map (·.token))).map
        (fun span => (span.text? (front ++ text), span.style)) =
      styledRuns style (pieces.map fun piece => (piece.before, piece.token.codes)) tail := by
  induction woven generalizing front style with
  | @tail offset tail =>
      subst placed
      rw [Text.size_append]
      exact styledTexts_literalRun style (by rw [List.append_nil])
  | @piece offset before rest tail sequence later _ _ _ induction =>
      subst placed
      have reached : (front ++ (before ++ sequence.render)).size =
          front.size + before.size + sequence.render.size := by
        simp [Nat.add_assoc]
      have inner := induction (style.apply sequence.codes) reached
      have regroup : front ++ (before ++ sequence.render) ++ rest =
          front ++ (before ++ (sequence.render ++ rest)) := by simp
      rw [regroup] at inner
      simp only [List.map_cons, spansFrom, List.map_append, styledRuns]
      rw [styledTexts_literalRun style rfl]
      exact congrArg _ inner

theorem Text.styledTexts_eq (text : Text) (folds : Bool) :
    (Highlights.compute text ⟨true, folds⟩).styledTexts text =
      styledRuns Style.plain
        ((Scanner.ofText true text).pieces.1.map fun piece =>
          (piece.before, piece.token.codes))
        (Scanner.ofText true text).pieces.2 := by
  have start : Text.size [] = 0 := rfl
  exact (text.woven true).styledTexts Style.plain start

/-! ## Passes -/

/-- Whether a text is one sequence. -/
def Text.IsSequence (text : Text) : Prop :=
  ∃ sequence : Sequence, sequence.isAdmitted true = true ∧ text = sequence.render

/-- What stands in the place of each token. -/
def written (tokens : List Token) (answers : List (Option Text)) : List Text :=
  List.zipWith (fun token answer => answer.getD token.text) tokens answers

/-- Runs of text with parts between them. -/
def interleave : List Text → List Text → Text
  | run :: runs, part :: parts => run ++ part ++ interleave runs parts
  | runs, _ => runs.flatten

theorem splice_eq_interleave {pieces : List Piece} {answers : List (Option Text)}
    (length : answers.length = pieces.length) (tail : Text) :
    splice pieces answers ++ tail =
      interleave (pieces.map (·.before) ++ [tail])
        (written (pieces.map (·.token)) answers) := by
  induction pieces generalizing answers with
  | nil =>
      rw [List.length_nil, List.length_eq_zero_iff] at length
      subst length
      simp [splice, written, interleave]
  | cons piece later induction =>
      cases answers with
      | nil => cases length
      | cons answer answers =>
          have inLater := induction (Nat.succ.inj length)
          rw [written] at inLater
          rw [splice, List.append_assoc, inLater]
          rfl

/-- A text is written anew with these texts in the place of its tokens. -/
structure Text.Rewritten (text : Text) (written : List Text) (output : Text) : Prop where
  number : (output.tokens true).length = (text.tokens true).length
  tokens : (output.tokens true).map Token.text = written
  runs : output.runs = text.runs
  stripped : strip output = strip text
  totalCodes : (Statistics.collect output).totalCodes = (Statistics.collect text).totalCodes
  totalLines : (Statistics.collect output).totalLines = (Statistics.collect text).totalLines
  linesWithCodes :
    (Statistics.collect output).linesWithCodes = (Statistics.collect text).linesWithCodes
  styles : (output.tokens true).map Token.codes = (text.tokens true).map Token.codes →
    ∀ folds, (Highlights.compute output ⟨true, folds⟩).styledTexts output =
      (Highlights.compute text ⟨true, folds⟩).styledTexts text

/-- Sequences in the place of sequences are woven with the runs as before. -/
theorem Woven.splice {offset : Nat} {text tail : Text} {pieces : List Piece}
    (woven : Woven true offset text pieces tail) {answers : List (Option Text)}
    (length : answers.length = pieces.length)
    (sequences : ∀ answer, some answer ∈ answers → answer.IsSequence) (start : Nat) :
    ∃ rewritten, Woven true start (LogTint.splice pieces answers ++ tail) rewritten tail ∧
      rewritten.map (·.before) = pieces.map (·.before) ∧
      rewritten.map (·.token.text) = written (pieces.map (·.token)) answers := by
  induction woven generalizing answers start with
  | tail literal =>
      rw [List.length_nil, List.length_eq_zero_iff] at length
      subst length
      exact ⟨[], .tail literal, rfl, rfl⟩
  | @piece offset before rest tail sequence later literal admitted _ induction =>
      cases answers with
      | nil => cases length
      | cons answer answers =>
          obtain ⟨placed, placedAdmitted, same⟩ : ∃ placed : Sequence,
              placed.isAdmitted true = true ∧
                answer.getD sequence.render = placed.render := by
            cases answer with
            | none => exact ⟨sequence, admitted, rfl⟩
            | some answer => exact sequences answer List.mem_cons_self
          obtain ⟨rewritten, woven, befores, texts⟩ := induction
            (Nat.succ.inj length) (fun answer member =>
              sequences answer (List.mem_cons_of_mem _ member))
            (start + before.size + placed.render.size)
          refine ⟨⟨before, ⟨start + before.size, placed⟩⟩ :: rewritten, ?_, ?_, ?_⟩
          · have next := Woven.piece literal placedAdmitted woven
            rw [LogTint.splice]
            simpa [Token.text, same] using next
          · rw [List.map_cons, List.map_cons, befores]
          · rw [List.map_cons, List.map_cons, texts]
            exact congrArg (· :: _) same.symm

/-- A text with sequences in the place of its sequences. -/
theorem rewritten_splice (text : Text) {answers : List (Option Text)}
    (length : answers.length = (text.tokens true).length)
    (sequences : ∀ answer, some answer ∈ answers → answer.IsSequence) :
    text.Rewritten (written (text.tokens true) answers)
      (splice (Scanner.ofText true text).pieces.1 answers ++
        (Scanner.ofText true text).pieces.2) := by
  have lengths : answers.length = (Scanner.ofText true text).pieces.1.length := by
    rw [length, Text.tokens, Scanner.tokens, List.length_map]
  obtain ⟨rewritten, woven, befores, texts⟩ :=
    (text.woven true).splice lengths sequences 0
  have parts := woven.eq_pieces
  have number := congrArg List.length befores
  rw [List.length_map, List.length_map] at number
  have runs : Text.runs (splice (Scanner.ofText true text).pieces.1 answers ++
      (Scanner.ofText true text).pieces.2) = text.runs := by
    rw [Text.runs, parts]
    dsimp only
    rw [befores]
    rfl
  constructor
  case number =>
    rw [Text.tokens, Scanner.tokens, parts, List.length_map, number, Text.tokens,
      Scanner.tokens, List.length_map]
  case tokens =>
    rw [Text.tokens, Scanner.tokens, parts, List.map_map]
    exact texts
  case runs => exact runs
  case stripped => rw [strip_eq_flatten_runs, strip_eq_flatten_runs, runs]
  case totalCodes =>
    rw [Statistics.collect, Statistics.collect, parts]
    exact number
  case totalLines =>
    simp only [Statistics.collect]
    rw [Text.count_newline, runs, ← Text.count_newline]
  case linesWithCodes =>
    simp only [Statistics.collect, parts]
    rw [visit_foldl_congr _ befores]
  case styles =>
    intro sameCodes folds
    rw [Text.tokens, Scanner.tokens, parts, Text.tokens, Scanner.tokens, List.map_map,
      List.map_map] at sameCodes
    have zipped (pieces : List Piece) :
        (pieces.map fun piece => (piece.before, piece.token.codes)) =
          (pieces.map (·.before)).zip (pieces.map (Token.codes ∘ (·.token))) :=
      List.zip_map'.symm
    rw [Text.styledTexts_eq, Text.styledTexts_eq, parts, zipped, zipped, befores,
      sameCodes]

/-- A pass that keeps every token writes the text as it is. -/
theorem Woven.splice_kept {offset : Nat} {text tail : Text} {pieces : List Piece}
    (woven : Woven true offset text pieces tail) {answers : List (Option Text)}
    (kept : answers.any Option.isSome = false) :
    LogTint.splice pieces answers ++ tail = text := by
  induction woven generalizing answers with
  | tail => rfl
  | piece _ _ _ induction =>
      cases answers with
      | nil =>
          have later := induction List.any_nil
          simpa [LogTint.splice, Token.text] using later
      | cons answer answers =>
          rw [List.any_cons, Bool.or_eq_false_iff] at kept
          have isKept : answer = none := by simpa using kept.1
          have later := induction kept.2
          simpa [LogTint.splice, Token.text, isKept] using later

theorem getD_splice (text : Text) (answers : List (Option Text)) :
    (if answers.any Option.isSome then
        some (splice (Scanner.ofText true text).pieces.1 answers ++
          (Scanner.ofText true text).pieces.2)
      else none).getD text =
      splice (Scanner.ofText true text).pieces.1 answers ++
        (Scanner.ofText true text).pieces.2 := by
  split
  case isTrue => rfl
  case isFalse kept =>
    exact ((text.woven true).splice_kept (Bool.eq_false_iff.mpr kept)).symm

/-- A rule that remembers is asked once for every token. -/
theorem length_mapM {σ : Type} (replace : Token → StateM σ (Option Text))
    (tokens : List Token) (state : σ) :
    ((tokens.mapM replace).run state).1.length = tokens.length := by
  induction tokens generalizing state with
  | nil => rfl
  | cons token tokens induction =>
      rw [List.mapM_cons]
      exact congrArg (· + 1) (induction ((replace token).run state).2)

theorem rewritten_rewriteTokens (replace : Token → Option Text) (text : Text)
    (sequences : ∀ token ∈ text.tokens true, ∀ answer, replace token = some answer →
      answer.IsSequence) :
    text.Rewritten ((text.tokens true).map fun token => (replace token).getD token.text)
      ((rewriteTokens replace text).getD text) := by
  have answersAreSequences : ∀ answer, some answer ∈ (text.tokens true).map replace →
      answer.IsSequence := by
    intro answer member
    obtain ⟨token, tokenMember, replaced⟩ := List.mem_map.mp member
    exact sequences token tokenMember answer replaced
  have rewritten := rewritten_splice text (List.length_map _) answersAreSequences
  rw [written, List.zipWith_map_right, List.zipWith_self] at rewritten
  have asked : (text.tokens true).map replace =
      (Scanner.ofText true text).pieces.1.map fun piece : Piece => replace piece.token :=
    List.map_map
  rw [← getD_splice, asked] at rewritten
  exact rewritten

theorem rewritten_rewriteTokensM {σ : Type} (replace : Token → StateM σ (Option Text))
    (state : σ) (text : Text)
    (sequences : ∀ answer, some answer ∈ (((text.tokens true).mapM replace).run state).1 →
      answer.IsSequence) :
    text.Rewritten
      (written (text.tokens true) (((text.tokens true).mapM replace).run state).1)
      ((((rewriteTokensM replace text).run state).1).getD text) := by
  have rewritten := rewritten_splice text (length_mapM replace _ state) sequences
  rw [← getD_splice] at rewritten
  exact rewritten

/-! ## Passes of the library -/

theorem resetSequence_isSequence : resetSequence.render.IsSequence :=
  ⟨resetSequence, rfl, rfl⟩

namespace Code

variable {codes : List Code} {code : Code} {char : Char}

theorem join_cons_cons (code next : Code) (codes : List Code) :
    join (code :: next :: codes) = code ++ ';' :: join (next :: codes) := by
  simp [join, List.intercalate, List.intersperse]

theorem mem_join_of_mem (member : code ∈ codes) (inside : char ∈ code) :
    char ∈ join codes := by
  induction codes with
  | nil => cases member
  | cons first rest induction =>
      cases rest with
      | nil =>
          rw [List.mem_singleton.mp member] at inside
          simpa [join, List.intercalate] using inside
      | cons next later =>
          rw [join_cons_cons]
          rcases List.mem_cons.mp member with rfl | further
          · exact List.mem_append_left _ inside
          · exact List.mem_append_right _ (List.mem_cons_of_mem _ (induction further))

theorem isParameter_join
    (allowed : ∀ code ∈ codes, ∀ char ∈ code, Sequence.isParameter char = true) :
    ∀ char ∈ join codes, Sequence.isParameter char = true := by
  induction codes with
  | nil => exact List.forall_mem_nil _
  | cons first rest induction =>
      obtain ⟨inFirst, inRest⟩ := List.forall_mem_cons.mp allowed
      cases rest with
      | nil => simpa [join, List.intercalate] using inFirst
      | cons next later =>
          rw [join_cons_cons]
          intro char member
          rcases List.mem_append.mp member with early | member
          · exact inFirst char early
          · rcases List.mem_cons.mp member with rfl | late
            · rfl
            · exact induction inRest char late

end Code

/-- The groups of a token are made of its parameters. -/
theorem Token.isParameter_group {token : Token} {group : List Code}
    (admitted : token.sequence.isAdmitted true = true) (member : group ∈ codeGroups token.codes) :
    ∀ char ∈ Code.join group, Sequence.isParameter char = true := by
  apply Code.isParameter_join
  intro code inGroup char inCode
  have inCodes : code ∈ token.codes := by
    rw [← (codeGroups_spec token.codes).2]
    exact List.mem_flatten.mpr ⟨group, member, inGroup⟩
  have inParameters : char ∈ Code.join token.codes := Code.mem_join_of_mem inCodes inCode
  rw [codes, Sequence.codes, Code.join_split] at inParameters
  exact (Sequence.isAdmitted_iff.mp admitted).2 char inParameters

/-- A replacement that is not empty takes the place of each group like it. -/
theorem replaceGroups_eq_map {new : Text} (nonempty : new ≠ []) (old : Text)
    (groups : List Text) :
    replaceGroups old new groups =
      groups.map fun group => if group = old then new else group := by
  rw [replaceGroups, List.map_eq_flatMap]
  congr 1
  funext group
  rw [if_neg (show ¬new.isEmpty = true by simpa using nonempty)]
  split <;> rfl

/-- A sequence with a group replaced by parameters is a sequence. -/
theorem Token.replaceGroup?_isSequence {old new : Text} {token : Token} {answer : Text}
    (nonempty : new ≠ []) (allowed : ∀ char ∈ new, Sequence.isParameter char = true)
    (admitted : token.sequence.isAdmitted true = true)
    (replaced : token.replaceGroup? old new = some answer) : answer.IsSequence := by
  unfold replaceGroup? at replaced
  dsimp only at replaced
  rw [replaceGroups_eq_map nonempty] at replaced
  split at replaced
  case isFalse => cases replaced
  case isTrue found =>
    split at replaced
    case h_1 none =>
      rw [List.map_eq_nil_iff.mp none] at found
      cases found
    case h_2 =>
      refine ⟨⟨token.sequence.marker, Code.join (((codeGroups token.codes).map
        Code.join).map fun group => if group = old then new else group)⟩,
        Sequence.isAdmitted_iff.mpr ⟨?_, ?_⟩, (Option.some.inj replaced).symm⟩
      · cases token.sequence.marker <;> rfl
      · apply Code.isParameter_join
        intro code member
        obtain ⟨group, inGroups, rfl⟩ := List.mem_map.mp member
        split
        · exact allowed
        · obtain ⟨codes, inCodes, rfl⟩ := List.mem_map.mp inGroups
          exact isParameter_group admitted inCodes

/-- Sequences in the place of sequences keep the document, whatever rule decides
what is replaced by what; and the passes of the library are of this kind. -/
theorem rewriting_keeps_document (text : Text) :
    (∀ {σ : Type} (replace : Token → StateM σ (Option Text)) (state : σ),
      let answers := (((text.tokens true).mapM replace).run state).1
      (∀ answer, some answer ∈ answers → answer.IsSequence) →
        text.Rewritten (written (text.tokens true) answers)
          ((((rewriteTokensM replace text).run state).1).getD text)) ∧
      text.Rewritten
        ((text.tokens true).map fun token =>
          if token.selectsIndexed then resetSequence.render else token.text)
        (normalizeIndexed text) ∧
      ∀ old new : Text, new ≠ [] → (∀ char ∈ new, Sequence.isParameter char = true) →
        text.Rewritten
          ((text.tokens true).map fun token =>
            (token.replaceGroup? old new).getD token.text)
          (replaceCode old new text) := by
  refine ⟨fun replace state sequences => rewritten_rewriteTokensM replace state text sequences,
    ?_, fun old new nonempty allowed => ?_⟩
  · have rewritten := rewritten_rewriteTokens
      (fun token => if token.selectsIndexed then some resetSequence.render else none) text
      (fun token _ answer same => by
        obtain ⟨_, replaced⟩ := Option.ite_none_right_eq_some.mp same
        exact Option.some.inj replaced ▸ resetSequence_isSequence)
    have texts : (fun token : Token => (if token.selectsIndexed then
        some resetSequence.render else none).getD token.text) = fun token =>
          if token.selectsIndexed then resetSequence.render else token.text := by
      funext token
      split <;> rfl
    rwa [texts] at rewritten
  · exact rewritten_rewriteTokens (Token.replaceGroup? old new) text
      fun token member answer replaced => Token.replaceGroup?_isSequence nonempty allowed
        (Text.mem_tokens_iff.mp member).1 replaced

end LogTint
