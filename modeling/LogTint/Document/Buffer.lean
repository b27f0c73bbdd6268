import LogTint.Text.Offset

/-!
# Text buffers

A buffer keeps its length in characters beside its text, so that the size of a
document is known without counting it again after every edit.
-/

namespace LogTint

/-- A text together with its number of characters. -/
structure Buffer where
  text : Text
  chars : Nat
deriving DecidableEq

namespace Buffer

def ofText (text : Text) : Buffer := ⟨text, text.length⟩

def replace (_ : Buffer) (text : Text) : Buffer := ofText text

def append (buffer : Buffer) (text : Text) : Buffer :=
  ⟨buffer.text ++ text, buffer.chars + text.length⟩

def size (buffer : Buffer) : Nat := buffer.text.size

def isEmpty (buffer : Buffer) : Bool := decide (buffer.size = 0)

end Buffer

/-- Whether a text has more characters than allowed.  A text has at most as
many characters as bytes, so most texts are judged by their bytes alone. -/
def Text.exceeds (text : Text) (ceiling : Nat) : Bool :=
  decide (ceiling < text.size) && decide (ceiling < text.length)

end LogTint
