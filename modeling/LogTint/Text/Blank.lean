import LogTint.Text.Offset

/-!
# White space

The characters with the Unicode property of white space, and the text that is
left when they are removed from both ends.
-/

namespace LogTint.Text

/-- Whether a character is white space. -/
def isBlank (char : Char) : Bool :=
  let code := char.toNat
  (9 ≤ code && code ≤ 13) || code = 0x20 || code = 0x85 || code = 0xa0 ||
    code = 0x1680 || (0x2000 ≤ code && code ≤ 0x200a) || code = 0x2028 ||
    code = 0x2029 || code = 0x202f || code = 0x205f || code = 0x3000

/-- The text without white space at its ends. -/
def trim (text : Text) : Text :=
  ((text.dropWhile isBlank).reverse.dropWhile isBlank).reverse

/-- The text with its ASCII capitals made small; other letters stay. -/
def lowercase (text : Text) : Text := text.map Char.toLower

end LogTint.Text
