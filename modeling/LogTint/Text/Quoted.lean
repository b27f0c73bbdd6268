import LogTint.Text.Printable

/-!
# Quoted text

A text is quoted for a message between double quotes.  The quote, the backslash
and four control characters have short escapes; every other character that is
not printable is written by its code point in hexadecimal, in braces.
-/

namespace LogTint.Text

/-- The letter that stands behind a backslash for a character. -/
def escapeLetter? : Char → Option Char
  | '"' => some '"'
  | '\\' => some '\\'
  | '\t' => some 't'
  | '\n' => some 'n'
  | '\r' => some 'r'
  | '\x00' => some '0'
  | _ => none

/-- A character as it stands between quotes. -/
def quoteChar (char : Char) : Text :=
  match escapeLetter? char with
  | some letter => ['\\', letter]
  | none =>
      if isPrintable char then [char]
      else '\\' :: 'u' :: '\x7b' :: Nat.toDigits 16 char.toNat ++ ['\x7d']

/-- A text between double quotes. -/
def quoted (text : Text) : Text := '"' :: text.flatMap quoteChar ++ ['"']

end LogTint.Text
