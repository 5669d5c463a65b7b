/-!
# Blank characters

Two sets of blanks, either of which may be trimmed from the ends of a value: the characters with
Unicode's property `White_Space`, and those together with the four information separators.

Model of `str.strip`, and of how the text of a number is trimmed.
-/

set_option autoImplicit false

namespace SimpleQuery.Text

/-- A character with the property `White_Space`. -/
def isWhiteSpace (c : Char) : Bool :=
  let n := c.toNat
  (0x09 ≤ n && n ≤ 0x0D) || n == 0x20 || n == 0x85 || n == 0xA0 || n == 0x1680 ||
    (0x2000 ≤ n && n ≤ 0x200A) || n == 0x2028 || n == 0x2029 || n == 0x202F || n == 0x205F ||
    n == 0x3000

/-- White space or an information separator. -/
def isSpacing (c : Char) : Bool :=
  isWhiteSpace c || (0x1C ≤ c.toNat && c.toNat ≤ 0x1F)

/-- The text without the blanks at both ends. -/
def trim (blank : Char → Bool) (text : List Char) : List Char :=
  ((text.dropWhile blank).reverse.dropWhile blank).reverse

end SimpleQuery.Text
