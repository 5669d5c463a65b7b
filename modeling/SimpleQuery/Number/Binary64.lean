/-!
# Binary floating-point numbers

Numbers in the 64-bit interchange format. All but the sign bit make one natural number, the
*magnitude*, which orders the numbers as their values do; the magnitude of infinity is the first that
is no finite number, and those above it are not numbers.

* `Binary64.ofRatio` — the number nearest to a ratio, a half going to the even neighbour.
* `Binary64.isPositive_iff` — a number is positive exactly if it is not refused as zero or less, and
  is a number at all.

Model of `float`.
-/

set_option autoImplicit false

namespace SimpleQuery

/-- How many magnitudes share one exponent: two to the power of 52. -/
def Binary64.perExponent : Nat := 4503599627370496

/-- A number in the 64-bit interchange format. -/
structure Binary64 where
  negative : Bool
  magnitude : Fin (2048 * Binary64.perExponent)
  deriving DecidableEq, Repr

namespace Binary64

/-- The magnitude of infinity. -/
def infinite : Nat := 2047 * perExponent

theorem infinite_lt : infinite < 2048 * perExponent := by decide

/-- Infinity of either sign. -/
def infinity (negative : Bool) : Binary64 := ⟨negative, ⟨infinite, infinite_lt⟩⟩

/-- What is not a number. -/
def nan (negative : Bool) : Binary64 := ⟨negative, ⟨infinite + perExponent / 2, by decide⟩⟩

/-- Zero of either sign. -/
def zero (negative : Bool) : Binary64 := ⟨negative, ⟨0, by decide⟩⟩

def isNaN (x : Binary64) : Bool := infinite < x.magnitude.val

def isFinite (x : Binary64) : Bool := x.magnitude.val < infinite

/-- A number that is zero or less. What is not a number is not. -/
def isAtMostZero (x : Binary64) : Bool :=
  !x.isNaN && (x.negative || x.magnitude.val == 0)

/-- A number greater than zero. -/
def isPositive (x : Binary64) : Bool :=
  !x.isNaN && !x.negative && x.magnitude.val != 0

theorem isPositive_iff (x : Binary64) :
    x.isPositive = true ↔ x.isAtMostZero = false ∧ x.isNaN = false := by
  cases hn : x.isNaN <;> cases hs : x.negative <;>
    simp [isPositive, isAtMostZero, hn, hs]

/-- The significand and the power of two of a finite number. -/
def parts (x : Binary64) : Nat × Int :=
  let e : Nat := x.magnitude.val / perExponent
  let f : Nat := x.magnitude.val % perExponent
  if e = 0 then (f, -1074) else (perExponent + f, (e : Int) - 1075)

/-- The bits, the sign first. -/
def bits (x : Binary64) : Nat := (if x.negative then 2048 * perExponent else 0) + x.magnitude.val

/-- The quotient rounded to the nearest natural number, a half going to the even neighbour. -/
def roundDiv (num den : Nat) : Nat :=
  let q := num / den
  let r := num % den
  if 2 * r < den then q else if den < 2 * r then q + 1 else q + q % 2

/-- The quotient of `num` and `den * 2 ^ k`, as a ratio of natural numbers. -/
def shifted (num den : Nat) (k : Int) : Nat × Nat :=
  if 0 ≤ k then (num, den <<< k.toNat) else (num <<< (-k).toNat, den)

/-- The magnitude nearest to `num / den`. The quotient is taken to 53 bits, or to the last place that
the format has; a quotient that is rounded up to the next power of two carries into the exponent. -/
def magnitudeOfRatio (num den : Nat) : Nat :=
  if num = 0 then 0 else
  let least : Int := max ((Nat.log2 num : Int) - Nat.log2 den - 53) (-1074)
  let ratio := shifted num den least
  let k := if 2 * perExponent ≤ ratio.1 / ratio.2 then least + 1 else least
  let ratio := shifted num den k
  (k + 1074).toNat * perExponent + roundDiv ratio.1 ratio.2

/-- The number nearest to `num / den`; one too large for the format is infinity. -/
def ofRatio (negative : Bool) (num den : Nat) : Binary64 :=
  ⟨negative, ⟨min (magnitudeOfRatio num den) infinite,
    Nat.lt_of_le_of_lt (Nat.min_le_right _ _) infinite_lt⟩⟩

/-- A power of ten. -/
def tenTo (n : Nat) : Nat := Nat.pow 10 n

/-- The number nearest to `digits * 10 ^ exponent`, where `count` digits are written. Far outside the
format's range the power is not computed. -/
def ofDecimal (negative : Bool) (digits count : Nat) (exponent : Int) : Binary64 :=
  if digits = 0 ∨ exponent + count < -330 then zero negative
  else if 310 < exponent ∧ 0 < digits then infinity negative
  else if 0 ≤ exponent then ofRatio negative (digits * tenTo exponent.toNat) 1
  else ofRatio negative digits (tenTo (-exponent).toNat)

/-- The number nearest to an integer, if the format reaches it. -/
def ofInt? (n : Int) : Option Binary64 :=
  let x := ofRatio (n < 0) n.natAbs 1
  if x.isFinite then some x else none

/-- The integer that a finite number is, if it is one. -/
def toInt? (x : Binary64) : Option Int :=
  if x.isFinite then
    let m := x.parts.1
    let q := x.parts.2
    let whole :=
      if 0 ≤ q then some (m <<< q.toNat)
      else if m % (1 <<< (-q).toNat) = 0 then some (m >>> (-q).toNat) else none
    whole.map fun (n : Nat) => if x.negative then -(n : Int) else n
  else none

end Binary64

end SimpleQuery
