import LogTint.Rewrite.Splice
import LogTint.Text.Bytes

/-!
# Passes by a cursor

A pass over a text may copy it slice by slice, with a cursor at the end of what was
copied.  The slices are taken at offsets that the pass computes; where one does not fit
the text the pass breaks off, which `none` stands for here.
-/

namespace LogTint

/-- A rewriting pass in progress: what it has written, if anything, and where the text
that it has yet to copy begins. -/
structure Copying where
  written : Option Text
  cursor : Nat
deriving DecidableEq

namespace Copying

/-- A pass that has not begun to write. -/
def idle : Copying := ⟨none, 0⟩

/-- What one answer makes of a pass.  A token that is kept is copied later, with the text
around it. -/
def visit (text : Text) (copying : Copying) (token : Token) :
    Option Text → Option Copying
  | none => some copying
  | some replacement =>
      (text.slice? copying.cursor token.start).map fun literal =>
        ⟨some (copying.written.getD [] ++ literal ++ replacement), token.stop⟩

/-- Copies the end of the text, unless nothing was written before it. -/
def finish (text : Text) (copying : Copying) : Option (Option Text) :=
  match copying.written with
  | none => some none
  | some written =>
      (text.slice? copying.cursor text.size).map fun tail => some (written ++ tail)

/-- Asks for one token after the other and finishes the pass. -/
def rewrite {σ : Type} (replace : Token → StateM σ (Option Text)) (text : Text) :
    List Token → Copying → σ → Option (Option Text × σ)
  | [], copying, state => (copying.finish text).map (·, state)
  | token :: later, copying, state =>
      let (answer, after) := (replace token).run state
      (copying.visit text token answer).bind fun next =>
        next.rewrite replace text later after

end Copying

/-- Rewrites the tokens of a text by a cursor. -/
def rewriteByCursor {σ : Type} (replace : Token → StateM σ (Option Text)) (text : Text)
    (state : σ) : Option (Option Text × σ) :=
  Copying.idle.rewrite replace text (text.tokens true) state

/-- The marker that a text has at an offset where a token starts: the escape character, or
the six characters of a spelled-out one. -/
def Text.markerAt? (text : Text) (start : Nat) : Option Text :=
  (bytes text)[start]?.bind fun first =>
    text.slice? start (start + if first = 0x1b then 1 else 6)

/-- Copies what stands between tokens, from the cursor to the end of the text. -/
def copyBetween (text : Text) : Nat → List Token → Option Text
  | cursor, [] => text.slice? cursor text.size
  | cursor, token :: later =>
      (text.slice? cursor token.start).bind fun literal =>
        (copyBetween text token.stop later).map (literal ++ ·)

/-- Removes the tokens of a text by a cursor; `none` inside when it has none. -/
def stripByCursor (text : Text) : Option (Option Text) :=
  match text.tokens true with
  | [] => some none
  | tokens => (copyBetween text 0 tokens).map some

end LogTint
