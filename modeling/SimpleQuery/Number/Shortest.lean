import SimpleQuery.Number.Binary64

/-!
# The shortest decimal of a number

The decimal with the fewest digits that reads back as a given number, and of those the nearest.
A number is `m * 2 ^ q`; the reals that round to it are an interval around it that holds its ends
exactly if `m` is even. In quarters of the last place the interval reaches two above `4 * m` and two
below, or one below where the next number down is half as far.

Model of `repr` for a `float`.
-/

set_option autoImplicit false

namespace SimpleQuery.Shortest

/-- A positive decimal: `digits * 10 ^ power`. -/
structure Decimal where
  digits : Nat
  power : Int
  deriving DecidableEq, Repr

/-- The numbers `digits * 10 ^ power` and `quarters * 2 ^ q`, over one denominator. -/
def aligned (d : Decimal) (quarters : Nat) (q : Int) : Nat × Nat :=
  ((d.digits * Binary64.tenTo d.power.toNat) <<< (-q).toNat,
   (quarters * Binary64.tenTo (-d.power).toNat) <<< q.toNat)

/-- Whether a decimal rounds to the number with significand `m` and last place `2 ^ (q + 2)`, of
which `below` quarters are the way down to the end of its interval. -/
def readsBack (m below : Nat) (q : Int) (d : Decimal) : Bool :=
  let low := aligned d (4 * m - below) q
  let high := aligned d (4 * m + 2) q
  if m % 2 = 0 then low.2 ≤ low.1 && high.1 ≤ high.2 else low.2 < low.1 && high.1 < high.2

/-- The distance of a decimal from `4 * m * 2 ^ q`, over a denominator that the two neighbours on a
grid share. -/
def distance (m : Nat) (q : Int) (d : Decimal) : Nat :=
  let p := aligned d (4 * m) q
  (p.1 - p.2) + (p.2 - p.1)

/-- The two neighbours of `4 * m * 2 ^ q` on the grid of the multiples of `10 ^ power`. -/
def neighbours (m : Nat) (q power : Int) : Decimal × Decimal :=
  let num := (4 * m * Binary64.tenTo (-power).toNat) <<< q.toNat
  let den := Binary64.tenTo power.toNat <<< (-q).toNat
  (⟨num / den, power⟩, ⟨num / den + 1, power⟩)

/-- The nearer of the two neighbours that read back, if one does; a tie goes to the even one. -/
def onGrid (m below : Nat) (q power : Int) : Option Decimal :=
  let (a, b) := neighbours m q power
  match readsBack m below q a, readsBack m below q b with
  | true, false => some a
  | false, true => some b
  | false, false => none
  | true, true =>
    let da := distance m q a
    let db := distance m q b
    some (if da < db ∨ (da = db ∧ a.digits % 2 = 0) then a else b)

/-- The greatest power of ten that is not above `4 * m * 2 ^ q`, found by going down from a power that
is above it. -/
def leadingPower (m : Nat) (q : Int) : Nat → Int → Int
  | 0, p => p
  | k + 1, p =>
    let one := aligned ⟨1, p⟩ (4 * m) q
    if one.1 ≤ one.2 then p else leadingPower m q k (p - 1)

/-- The shortest decimal of a positive finite number. The first grid that holds a decimal which reads
back has the fewest digits; seventeen always suffice. -/
def decimal (x : Binary64) : Decimal :=
  let m := x.parts.1
  let q := x.parts.2 - 2
  let below := if m = Binary64.perExponent ∧ 2 * m ≤ x.magnitude.val then 1 else 2
  let top := leadingPower m q 640 309
  ((List.range 17).findSome? fun (k : Nat) => onGrid m below q (top - (k : Int))).getD ⟨4 * m, q⟩

/-- How the text of a number is laid out: positional while the exponent of its first digit lies from
`least` to below `most`, and with an exponent of at least `exponentDigits` digits otherwise. -/
structure Layout where
  least : Int
  most : Int
  exponentDigits : Nat

/-- The layout of the numbers in messages: positional from 0.0001 to below ten to the sixteenth. -/
def Layout.message : Layout := ⟨-4, 16, 2⟩

/-- The text of a positive decimal. A whole number ends in `.0` where it is positional. -/
def Decimal.text (layout : Layout) (d : Decimal) : String :=
  let trailing := (Nat.toDigits 10 d.digits).reverse.takeWhile (· == '0')
  let digits := (Nat.toDigits 10 d.digits).take ((Nat.toDigits 10 d.digits).length - trailing.length)
  let power := d.power + trailing.length
  let exponent := power + digits.length - 1
  let zeros (n : Int) : List Char := List.replicate n.toNat '0'
  if layout.least ≤ exponent ∧ exponent < layout.most then
    if exponent < 0 then String.ofList ('0' :: '.' :: zeros (-exponent - 1) ++ digits)
    else if 0 ≤ power then String.ofList (digits ++ zeros power ++ ['.', '0'])
    else
      let whole := (exponent + 1).toNat
      String.ofList (digits.take whole ++ '.' :: digits.drop whole)
  else
    let tail := if digits.length ≤ 1 then [] else '.' :: digits.drop 1
    let written := Nat.toDigits 10 exponent.natAbs
    let mark := if exponent < 0 then '-' else '+'
    String.ofList (digits.take 1 ++ tail ++ 'e' :: mark ::
      (zeros (layout.exponentDigits - written.length) ++ written))

/-- The text of a number. -/
def text (layout : Layout) (x : Binary64) : String :=
  if x.isNaN then "nan"
  else
    let magnitude :=
      if !x.isFinite then "inf"
      else if x.magnitude.val = 0 then "0.0"
      else (decimal x).text layout
    if x.negative then "-" ++ magnitude else magnitude

end SimpleQuery.Shortest
