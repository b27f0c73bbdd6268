import LogTint.Proofs.Rewriting
import LogTint.Proofs.Stripping
import LogTint.Rewrite.Cursor

/-!
# Passes agree

A text is taken apart into the runs between its tokens and the tokens.  A rewriting
pass, a pass that removes the tokens and the spans of a highlighting pass each go over
the text with a cursor of their own; all of them copy these same runs, each once.
-/

namespace LogTint

section Slices

variable {source front part after : Text} {start stop : Nat}

/-- What lies between two offsets is the slice there. -/
theorem Text.slice?_between (same : source = front ++ (part ++ after))
    (starts : front.size = start) (stops : Text.size (front ++ part) = stop) :
    source.slice? start stop = some part := by
  subst starts stops
  exact slice?_eq_some_iff.mpr ⟨front, after, same, rfl, size_append front part⟩

/-- What lies behind an offset is the slice up to the end. -/
theorem Text.slice?_behind (same : source = front ++ part) (starts : front.size = start) :
    source.slice? start source.size = some part := by
  have whole : source = front ++ (part ++ []) := by
    rw [List.append_nil]
    exact same
  exact slice?_between whole starts (congrArg size same.symm)

end Slices

section Asking

variable {σ : Type} (replace : Token → StateM σ (Option Text)) (state : σ)

theorem run_mapM_nil : ((([] : List Token).mapM replace).run state) = ([], state) := rfl

/-- The first token is asked for first, and the others with the state after it. -/
theorem run_mapM_cons (token : Token) (later : List Token) :
    ((token :: later).mapM replace).run state =
      (((replace token).run state).1 ::
          ((later.mapM replace).run ((replace token).run state).2).1,
        ((later.mapM replace).run ((replace token).run state).2).2) := by
  rw [List.mapM_cons]
  rfl

theorem Copying.rewrite_cons (text : Text) (token : Token) (later : List Token)
    (copying : Copying) :
    copying.rewrite replace text (token :: later) state =
      (copying.visit text token ((replace token).run state).1).bind fun next =>
        next.rewrite replace text later ((replace token).run state).2 := rfl

end Asking

namespace Woven

variable {offset : Nat} {source text tail front kept : Text} {pieces : List Piece}

/-- The runs of a text are what stands between its tokens. -/
theorem slices (woven : Woven true offset text pieces tail) (same : source = front ++ text)
    (placed : front.size = offset) :
    List.zipWith source.slice? (offset :: pieces.map (·.token.stop))
        (pieces.map (·.token.start) ++ [source.size]) =
      (pieces.map (·.before) ++ [tail]).map some := by
  induction woven generalizing front with
  | @tail offset tail =>
      simp [Text.slice?_behind same placed]
  | @piece offset before rest tail sequence later _ _ _ induction =>
      have regroup : source = (front ++ before ++ sequence.render) ++ rest := by
        rw [same, List.append_assoc, List.append_assoc]
      have reached : Text.size (front ++ before) = offset + before.size := by
        rw [Text.size_append, placed]
      have inner := induction regroup (by rw [Text.size_append, reached])
      have first := Text.slice?_between same placed reached
      rw [List.map_cons, List.map_cons, List.map_cons, List.cons_append, List.zipWith_cons_cons,
        first]
      exact congrArg (some before :: ·) inner

section Rewriting

variable {σ : Type} {replace : Token → StateM σ (Option Text)}

/-- What a pass by a cursor writes when it has copied up to the cursor and has kept the
tokens from there to the offset. -/
theorem rewriteByCursor (woven : Woven true offset text pieces tail) (copied : Option Text)
    (same : source = front ++ (kept ++ text)) (placed : Text.size (front ++ kept) = offset)
    (state : σ) :
    let asked := ((pieces.map (·.token)).mapM replace).run state
    Copying.rewrite replace source (pieces.map (·.token)) ⟨copied, front.size⟩ state =
      some (if copied.isSome || asked.1.any Option.isSome then
          some (copied.getD [] ++ (kept ++ (LogTint.splice pieces asked.1 ++ tail)))
        else none, asked.2) := by
  induction woven generalizing front kept copied state with
  | @tail offset tail =>
      have behind := Text.slice?_behind same rfl
      rw [List.map_nil, run_mapM_nil]
      cases copied with
      | none => rfl
      | some copied => simp [Copying.rewrite, Copying.finish, LogTint.splice, behind]
  | @piece offset before rest tail sequence later _ _ _ induction =>
      intro asked
      let token : Token := ⟨offset + before.size, sequence⟩
      have split : asked = _ :=
        run_mapM_cons replace state token (later.map fun piece : Piece => piece.token)
      rw [List.map_cons, Copying.rewrite_cons, split]
      have begins : Text.size (front ++ (kept ++ before)) = offset + before.size := by
        rw [← List.append_assoc, Text.size_append, placed]
      cases answer : ((replace token).run state).1 with
      | none =>
          -- The token is left to be copied, with the run before it.
          have regroup : source = front ++ ((kept ++ (before ++ sequence.render)) ++ rest) := by
            rw [same, List.append_assoc, List.append_assoc]
          have reached : Text.size (front ++ (kept ++ (before ++ sequence.render))) =
              offset + before.size + sequence.render.size := by
            rw [← List.append_assoc kept, ← List.append_assoc, Text.size_append, begins]
          have visited : Copying.visit source ⟨copied, front.size⟩ token none =
            some ⟨copied, front.size⟩ := rfl
          rw [visited, Option.bind_some, induction copied regroup reached]
          simp [LogTint.splice, Token.text, token]
      | some replacement =>
          have regroup : source =
              (front ++ (kept ++ before) ++ sequence.render) ++ ([] ++ rest) := by
            rw [same]
            simp
          have reached : Text.size (front ++ (kept ++ before) ++ sequence.render ++ []) =
              offset + before.size + sequence.render.size := by
            rw [List.append_nil, Text.size_append, begins]
          have around : source = front ++ ((kept ++ before) ++ (sequence.render ++ rest)) := by
            rw [same, List.append_assoc kept]
          have literal := Text.slice?_between around rfl begins
          have visited : Copying.visit source ⟨copied, front.size⟩ token (some replacement) =
              some ⟨some (copied.getD [] ++ (kept ++ before) ++ replacement),
                Text.size (front ++ (kept ++ before) ++ sequence.render)⟩ := by
            rw [List.append_nil] at reached
            rw [reached]
            exact congrArg (Option.map _) literal
          rw [visited, Option.bind_some, induction _ regroup reached]
          simp [LogTint.splice, token]

end Rewriting

/-- Copying between the tokens copies the runs. -/
theorem copyBetween (woven : Woven true offset text pieces tail) (same : source = front ++ text)
    (placed : front.size = offset) :
    LogTint.copyBetween source offset (pieces.map (·.token)) =
      some (pieces.map (·.before) ++ [tail]).flatten := by
  induction woven generalizing front with
  | @tail offset tail =>
      simp [LogTint.copyBetween, Text.slice?_behind same placed]
  | @piece offset before rest tail sequence later _ _ _ induction =>
      have regroup : source = (front ++ before ++ sequence.render) ++ rest := by
        rw [same, List.append_assoc, List.append_assoc]
      have reached : Text.size (front ++ before) = offset + before.size := by
        rw [Text.size_append, placed]
      have inner := induction regroup (by rw [Text.size_append, reached])
      have first := Text.slice?_between same placed reached
      rw [List.map_cons, LogTint.copyBetween, first, Option.bind_some]
      simp only [Token.stop, Token.text]
      rw [inner]
      rfl

end Woven

/-! ## The passes -/

namespace Text

theorem slices_runs (text : Text) :
    List.zipWith text.slice? (0 :: (text.tokens true).map Token.stop)
        ((text.tokens true).map Token.start ++ [text.size]) = text.runs.map some := by
  have slices := (text.woven true).slices (List.nil_append text).symm rfl
  rw [tokens, Scanner.tokens, List.map_map, List.map_map]
  exact slices

end Text

/-- A pass that writes into a log which tokens it was asked about. -/
def logged {σ : Type} (replace : Token → StateM σ (Option Text)) (token : Token) :
    StateM (List Token × σ) (Option Text) := fun (calls, state) =>
  let (answer, after) := (replace token).run state
  (answer, calls ++ [token], after)

theorem run_mapM_logged {σ : Type} (replace : Token → StateM σ (Option Text))
    (tokens calls : List Token) (state : σ) :
    (tokens.mapM (logged replace)).run (calls, state) =
      (((tokens.mapM replace).run state).1, calls ++ tokens,
        ((tokens.mapM replace).run state).2) := by
  induction tokens generalizing calls state with
  | nil => rw [run_mapM_nil, run_mapM_nil, List.append_nil]
  | cons token later induction =>
      have first : (logged replace token).run (calls, state) =
          (((replace token).run state).1, calls ++ [token], ((replace token).run state).2) := rfl
      rw [run_mapM_cons, run_mapM_cons, first, induction, List.append_assoc,
        List.singleton_append]

section Passes

variable {σ : Type} (replace : Token → StateM σ (Option Text)) (text : Text) (state : σ)

/-- A pass asks for all tokens and writes the text anew if it has to. -/
theorem run_rewriteTokensM :
    (rewriteTokensM replace text).run state =
      (if (((text.tokens true).mapM replace).run state).1.any Option.isSome then
          some (splice (Scanner.ofText true text).pieces.1
              (((text.tokens true).mapM replace).run state).1 ++
            (Scanner.ofText true text).pieces.2)
        else none,
        (((text.tokens true).mapM replace).run state).2) := rfl

theorem rewriteByCursor_eq :
    rewriteByCursor replace text state = some ((rewriteTokensM replace text).run state) := by
  have same : text = [] ++ ([] ++ text) := rfl
  have placed : Text.size ([] ++ []) = 0 := rfl
  exact (text.woven true).rewriteByCursor none same placed state

theorem rewriteTokensM_logged :
    (rewriteTokensM (logged replace) text).run ([], state) =
      (((rewriteTokensM replace text).run state).1, text.tokens true,
        ((rewriteTokensM replace text).run state).2) := by
  rw [run_rewriteTokensM, run_rewriteTokensM, run_mapM_logged, List.nil_append]

/-- What is written is the runs with an answer, or the token itself, between them. -/
theorem rewriteTokensM_getD :
    ((rewriteTokensM replace text).run state).1.getD text =
      interleave text.runs
        (written (text.tokens true) (((text.tokens true).mapM replace).run state).1) := by
  have length : (((text.tokens true).mapM replace).run state).1.length =
      (Scanner.ofText true text).pieces.1.length := by
    rw [length_mapM, Text.tokens, Scanner.tokens, List.length_map]
  rw [run_rewriteTokensM, getD_splice, splice_eq_interleave length]
  rfl

theorem rewriteTokensM_eq_none_iff :
    ((rewriteTokensM replace text).run state).1 = none ↔
      ∀ answer ∈ (((text.tokens true).mapM replace).run state).1, answer = none := by
  simp [run_rewriteTokensM]

/-- A rule that remembers nothing leaves the state alone. -/
theorem rewriteTokensM_pure (replace : Token → Option Text) :
    (rewriteTokensM (fun token => pure (replace token)) text).run state =
      (rewriteTokens replace text, state) := by
  rw [run_rewriteTokensM, List.mapM_pure]
  simp only [Text.tokens, Scanner.tokens, List.map_map]
  rfl

/-- Rewriting each token on its own writes the answers, or the tokens, between the runs. -/
theorem rewriteTokens_getD (replace : Token → Option Text) :
    (rewriteTokens replace text).getD text =
      interleave text.runs
        ((text.tokens true).map fun token => (replace token).getD token.text) := by
  have pass := rewriteTokensM_getD (fun token => (pure (replace token) : StateM Unit _)) text ()
  rw [rewriteTokensM_pure, List.mapM_pure] at pass
  have parts : written (text.tokens true) ((text.tokens true).map replace) =
      (text.tokens true).map fun token => (replace token).getD token.text := by
    rw [written, List.zipWith_map_right, List.zipWith_self]
  rw [← parts]
  exact pass

theorem rewriteTokens_eq_none_iff (replace : Token → Option Text) :
    rewriteTokens replace text = none ↔ ∀ token ∈ text.tokens true, replace token = none := by
  simp [rewriteTokens, Text.tokens, Scanner.tokens]

/-- A text is its runs with its tokens between them. -/
theorem interleave_runs : interleave text.runs ((text.tokens true).map Token.text) = text := by
  have kept := rewriteTokens_getD text fun _ => none
  rw [(rewriteTokens_eq_none_iff text fun _ => none).mpr fun _ _ => rfl] at kept
  exact kept.symm

theorem splice_empty (pieces : List Piece) :
    splice pieces (pieces.map fun _ => some []) = pieces.flatMap (·.before) := by
  induction pieces with
  | nil => rfl
  | cons piece later induction =>
      rw [List.map_cons, splice, induction]
      simp

/-- Removing the tokens is putting nothing in the place of each. -/
theorem strip?_eq_rewriteTokens : strip? text = rewriteTokens (fun _ => some []) text := by
  rw [strip?, rewriteTokens]
  rcases (Scanner.ofText true text).pieces with ⟨pieces, tail⟩
  cases pieces with
  | nil => rfl
  | cons piece later =>
      dsimp only
      rw [splice_empty]
      simp

theorem stripByCursor_eq : stripByCursor text = some (strip? text) := by
  have copied := (text.woven true).copyBetween (List.nil_append text).symm rfl
  unfold stripByCursor strip? Text.tokens Scanner.tokens
  rcases parts : (Scanner.ofText true text).pieces with ⟨pieces, tail⟩
  rw [parts] at copied
  cases pieces with
  | nil => rfl
  | cons piece later =>
      change (copyBetween text 0 ((piece :: later).map fun piece => piece.token)).map some = _
      rw [copied]
      simp [List.flatMap_def]

end Passes

/-! ## The spans -/

theorem mapM_of_map_eq {α β : Type} {items : List α} {find? : α → Option β} {parts : List β}
    (found : items.map find? = parts.map some) : items.mapM find? = some parts := by
  have whole : items.mapM find? = (items.map find?).mapM id := by
    rw [List.mapM_map]
    rfl
  rw [whole, found, List.mapM_map]
  simpa using List.mapM_pure (m := Option) (l := parts) (f := id)

theorem styledRun_text (run : Text) (style : Style) :
    (styledRun run style).map (·.1) = ([run].filter (· ≠ [])).map some := by
  unfold styledRun
  split <;> simp [*]

theorem styledRuns_texts (style : Style) (parts : List (Text × List Code)) (tail : Text) :
    (styledRuns style parts tail).map (·.1) =
      ((parts.map (·.1) ++ [tail]).filter (· ≠ [])).map some := by
  induction parts generalizing style with
  | nil => exact styledRun_text tail style
  | cons part later induction =>
      rw [styledRuns, List.map_append, styledRun_text, induction, ← List.map_append,
        ← List.filter_append]
      rfl

namespace Highlights

/-- The texts of the spans are the runs that hold something. -/
theorem pieces?_compute (text : Text) (folds : Bool) :
    (compute text ⟨true, folds⟩).pieces? text = some (text.runs.filter (· ≠ [])) := by
  apply mapM_of_map_eq
  have texts := congrArg (List.map Prod.fst) (Text.styledTexts_eq text folds)
  rw [styledTexts, List.map_map, styledRuns_texts, List.map_map] at texts
  exact texts

theorem plainText?_compute (text : Text) (folds : Bool) :
    (compute text ⟨true, folds⟩).plainText? text = some (strip text) := by
  rw [plainText?, pieces?_compute, Option.map_some, List.flatten_filter_ne_nil,
    strip_eq_flatten_runs]

end Highlights

/-- Every pass over a text copies the runs between its tokens, each once and in order.  A
rewriting pass asks once for every token and writes the answers between the runs, or the
tokens where there is none; the text without its tokens is what is left when all answers
are empty, and what the spans cover.  A pass that works with a cursor never takes a slice
that does not fit, and does the same. -/
theorem passes_agree (text : Text) :
    let tokens := text.tokens true
    List.zipWith text.slice? (0 :: tokens.map Token.stop)
        (tokens.map Token.start ++ [text.size]) = text.runs.map some ∧
    tokens.map (fun token => text.slice? token.start token.stop) =
      tokens.map (fun token => some token.text) ∧
    (∀ {σ : Type} (replace : Token → StateM σ (Option Text)) (state : σ),
      let asked := (tokens.mapM replace).run state
      let pass := (rewriteTokensM replace text).run state
      rewriteByCursor replace text state = some pass ∧
      (rewriteTokensM (logged replace) text).run ([], state) = (pass.1, tokens, pass.2) ∧
      asked.1.length = tokens.length ∧ pass.2 = asked.2 ∧
      pass.1.getD text = interleave text.runs (written tokens asked.1) ∧
      (pass.1 = none ↔ ∀ answer ∈ asked.1, answer = none)) ∧
    (∀ {σ : Type} (state : σ),
      (rewriteTokensM (fun _ => pure (some [])) text).run state = (strip? text, state)) ∧
    stripByCursor text = some (strip? text) ∧
    (Highlights.compute text .enabled).plainText? text = some (strip text) ∧
    ((buildSpans text).mapM (Span.text? · text)).map List.flatten = some (strip text) ∧
    (strip? text = none ↔ tokens = []) := by
  intro tokens
  refine ⟨text.slices_runs, ?_, ?_, ?_, stripByCursor_eq text,
    Highlights.plainText?_compute text true, Highlights.plainText?_compute text false,
    strip?_eq_none_iff text⟩
  · apply List.map_congr_left
    intro token member
    exact Text.slice?_of_mem_tokens member
  · intro σ replace state
    exact ⟨rewriteByCursor_eq replace text state, rewriteTokensM_logged replace text state,
      length_mapM replace tokens state, rfl, rewriteTokensM_getD replace text state,
      rewriteTokensM_eq_none_iff replace text state⟩
  · intro σ state
    rw [rewriteTokensM_pure text state fun _ => some [], strip?_eq_rewriteTokens]

end LogTint
