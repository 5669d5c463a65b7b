import SimpleQuery.Number.Binary64
import SimpleQuery.Text.Blank
import SimpleQuery.Text.Digit

/-!
# Numbers written as text

The texts that are read as integers and as decimal numbers. An integer has one plain form, without
blanks, a plus, zeros in front or underscores; a text with some of these is brought to that form.

Model of how a `BaseModel` reads an `int` and a `float` from a text, and of `int` of a text.
-/

set_option autoImplicit false

namespace SimpleQuery.Literal

/-- The number that decimal digits spell. -/
def value (digits : List Nat) : Nat := digits.foldl (fun acc d => acc * 10 + d) 0

/-- A sign in front of a text, and the rest. -/
def sign : List Char → Bool × List Char
  | '-' :: r => (true, r)
  | '+' :: r => (false, r)
  | r => (false, r)

def signed (negative : Bool) (n : Nat) : Int := if negative then -(n : Int) else n

/-- The most digits that an integer is written with. -/
def maxDigits : Nat := 4300

/-- Whether a text has underscores, each of them between two other characters. -/
def joined (text : List Char) : Bool :=
  text.contains '_' && text.head? != some '_' && text.getLast? != some '_' &&
    (text.zip (text.drop 1)).all fun p => p != ('_', '_')

/-- A text without its underscores, if each of them is between two other characters. -/
def withoutUnderscores (text : List Char) : List Char :=
  if joined text then text.filter (· != '_') else text

/-! ## Integers in ASCII digits -/

/-- What a text that should be an integer is. -/
inductive Integral where
  | value (n : Int)
  | malformed
  | tooLong
  deriving DecidableEq, Repr

/-- The integer of a text without a minus. A zero stands alone, and all other digits are counted
before anything behind them is looked at. -/
def plainMagnitude (negative : Bool) (body : List Char) : Integral :=
  if body = ['0'] then .value 0
  else if body.head? = some '0' then .malformed
  else if maxDigits < (body.takeWhile Char.isDigit).length then .tooLong
  else
    match body.mapM Text.asciiDigit? with
    | some (d :: ds) => .value (signed negative (value (d :: ds)))
    | _ => .malformed

/-- Reads an integer in its plain form: a minus if there is one, and the digits. -/
def plainInteger : List Char → Integral
  | '-' :: body => plainMagnitude true body
  | body => plainMagnitude false body

/-- Whether a character may stand among the zeros in front of a number. -/
def isFiller (c : Char) : Bool := c == '0' || c == '_'

/-- Splits off the zeros in front of a number. The last of them is left where no other digit follows,
and a minus may follow them. -/
def withoutLeadingZeros? : List Char → Option (List Char)
  | [] => none
  | c :: r =>
    if c = '0' then
      match r.dropWhile isFiller with
      | [] => some ((c :: r).getLast?.toList)
      | '.' :: fraction => some ((c :: r.takeWhile isFiller).getLast?.toList ++ '.' :: fraction)
      | d :: rest => if d.isDigit || d == '-' then some (d :: rest) else none
    else if c.isDigit then some (c :: r)
    else none

/-- Splits off a point and zeros at the end. -/
def withoutZeroFraction (text : List Char) : List Char :=
  let whole := text.takeWhile (· != '.')
  match text.dropWhile (· != '.') with
  | '.' :: z :: zeros => if (z :: zeros).all (· == '0') then whole else text
  | _ => text

/-- What is left of an integer without the blanks around it, a plus, zeros in front, a fraction of
zeros, and underscores. -/
def simplified? (text : List Char) : Option (List Char) := do
  let (negative, body) := sign (Text.trim Text.isWhiteSpace text)
  let body := withoutUnderscores (withoutZeroFraction (← withoutLeadingZeros? body))
  return if negative then '-' :: body else body

/-- Reads an integer in ASCII digits, in its plain form or brought to it. Only a text that is plain can
be too long. -/
def integral (text : String) : Integral :=
  match plainInteger text.toList with
  | .malformed =>
    match (simplified? text.toList).map plainInteger with
    | some (.value n) => .value n
    | _ => .malformed
  | result => result

/-! ## Integers in the digits of any script -/

/-- The digits that follow a first one, where a single underscore may stand in front of each. -/
def moreDigits? : List Char → Option (List Nat)
  | [] => some []
  | '_' :: c :: r => do return (← Text.digit? c) :: (← moreDigits? r)
  | c :: r => do return (← Text.digit? c) :: (← moreDigits? r)

/-- The digits of a text that is all digits, with single underscores between them. -/
def digits? : List Char → Option (List Nat)
  | [] => none
  | c :: r => do return (← Text.digit? c) :: (← moreDigits? r)

/-- Reads an integer in the decimal digits of any script, after trimming white space. -/
def integer? (text : String) : Option Int :=
  let (negative, body) := sign (Text.trim Text.isWhiteSpace text.toList)
  match digits? body with
  | some ds => if ds.length ≤ maxDigits then some (signed negative (value ds)) else none
  | none => none

/-! ## Decimal numbers -/

/-- The exponent at the end of a decimal number: none is zero. -/
def exponent? : List Char → Option Int
  | [] => some 0
  | e :: r =>
    if e = 'e' ∨ e = 'E' then
      let (negative, body) := sign r
      if body ≠ [] ∧ body.all Char.isDigit then
        (body.mapM Text.asciiDigit?).map fun ds => signed negative (value ds)
      else none
    else none

/-- Reads an unsigned decimal number: digits, of which some may follow a point, and an exponent. -/
def unsigned? (negative : Bool) (text : List Char) : Option Binary64 := do
  let whole := text.takeWhile Char.isDigit
  let rest := text.dropWhile Char.isDigit
  let (fraction, rest) :=
    match rest with
    | '.' :: r => (r.takeWhile Char.isDigit, r.dropWhile Char.isDigit)
    | r => ([], r)
  let ds ← (whole ++ fraction).mapM Text.asciiDigit?
  let exponent ← exponent? rest
  if ds = [] then none
  else some (Binary64.ofDecimal negative (value ds) ds.length (exponent - fraction.length))

/-- Reads a signed decimal number, or a name of infinity or of what is not a number. -/
def plain? (text : List Char) : Option Binary64 :=
  let (negative, body) := sign text
  let name := String.ofList (body.map Char.toLower)
  if name = "inf" ∨ name = "infinity" then some (.infinity negative)
  else if name = "nan" then some (.nan negative)
  else unsigned? negative body

/-- Reads a number, after trimming white space. A text with no blanks at its ends may have single
underscores inside. -/
def real? (text : String) : Option Binary64 :=
  let cs := text.toList
  (plain? (Text.trim Text.isWhiteSpace cs)).or
    (if joined cs then plain? (cs.filter (· != '_')) else none)

end SimpleQuery.Literal
