import SimpleQuery.Text.Printable
import SimpleQuery.Word

/-!
# Quoted text

A value quoted so that it shows on one line what it holds: between apostrophes, or between quotation
marks where it has an apostrophe and no quotation mark. A character that would not show is written by
its number.

Model of `repr` for texts and byte strings.
-/

set_option autoImplicit false

namespace SimpleQuery.Text

/-- The digits of a number in base sixteen, of a fixed count, in lower case. -/
def hexDigits : Nat → Nat → List Char
  | 0, _ => []
  | k + 1, n => Nat.digitChar (n >>> (4 * k) % 16) :: hexDigits k n

/-- The mark that a text is quoted with. -/
def quoteMark (text : List Char) : Char :=
  if text.contains '\x27' && !text.contains '\x22' then '\x22' else '\x27'

/-- A character as quoted text shows it, where `shown` says which characters show as themselves. -/
def quoteChar (shown : Char → Bool) (mark c : Char) : List Char :=
  if c = mark ∨ c = '\\' then ['\\', c]
  else if c = '\n' then ['\\', 'n']
  else if c = '\r' then ['\\', 'r']
  else if c = '\t' then ['\\', 't']
  else if shown c then [c]
  else if c.toNat < 0x100 then '\\' :: 'x' :: hexDigits 2 c.toNat
  else if c.toNat < 0x10000 then '\\' :: 'u' :: hexDigits 4 c.toNat
  else '\\' :: 'U' :: hexDigits 8 c.toNat

/-- A text quoted, where `shown` says which characters show as themselves. -/
def quoteWith (shown : Char → Bool) (text : List Char) : List Char :=
  let mark := quoteMark text
  mark :: text.flatMap (quoteChar shown mark) ++ [mark]

/-- A text quoted. -/
def quote (text : String) : String :=
  String.ofList (quoteWith isPrintable text.toList)

/-- Bytes quoted, marked by a letter in front; of them the visible ASCII characters and the space show
as themselves. -/
def quoteBytes (bytes : Bytes) : String :=
  String.ofList
    ('b' :: quoteWith (fun c => ' ' ≤ c && c ≤ '~') (bytes.map fun b => Char.ofNat b.toNat))

end SimpleQuery.Text
