/-!
# Binary floating-point numbers

The finite numbers of the double format, each a sign, a significand below 2^53 and a power of two.
Arithmetic is exact on rational numbers and rounds once, to the nearest number of the format and
from the middle to the even significand; `roundHalfEven` is the one place where that is decided.
-/

namespace LicenseDepot.Numeral

/-- The quotient of two natural numbers rounded to the nearest one, from the middle to the even. -/
def roundHalfEven (num den : Nat) : Nat :=
  let q := num / den
  let r := num % den
  if 2 * r < den then q
  else if den < 2 * r then q + 1
  else q + q % 2

/-- A finite number of the double format: its sign, its significand and the power of two that the
significand counts. -/
structure Binary64 where
  negative : Bool
  significand : Nat
  exponent : Int
  deriving DecidableEq, Repr

namespace Binary64

/-- The least power of two that a significand counts. -/
def minExponent : Int := -1074

/-- The greatest power of two that a significand counts. -/
def maxExponent : Int := 971

/-- Zero of a sign. -/
def zero (negative : Bool) : Binary64 := ⟨negative, 0, minExponent⟩

instance : Inhabited Binary64 := ⟨zero false⟩

/-- A power of two as a quotient. -/
def powerOfTwo (e : Int) : Nat × Nat :=
  if e < 0 then (1, Nat.pow 2 e.natAbs) else (Nat.pow 2 e.natAbs, 1)

/-- The size of a number as a quotient. -/
def ratio (x : Binary64) : Nat × Nat :=
  let (num, den) := powerOfTwo x.exponent
  (x.significand * num, den)

/-- The power of two that the significand of a positive quotient counts. -/
def exponentOf (num den : Nat) : Int :=
  let k : Int := (Nat.log2 num : Int) - Nat.log2 den
  let (p, q) := powerOfTwo k
  let reached := decide (den * p ≤ num * q)
  max minExponent (if reached then k - 52 else k - 53)

/-- The number nearest to a quotient, unless it is past the greatest one. -/
def ofRatio? (negative : Bool) (num den : Nat) : Option Binary64 :=
  if num = 0 then some (zero negative)
  else
    let e := exponentOf num den
    let (p, q) := powerOfTwo e
    let m := roundHalfEven (num * q) (den * p)
    let (m, e) := if m = Nat.pow 2 53 then (Nat.pow 2 52, e + 1) else (m, e)
    if maxExponent < e then none else some ⟨negative, m, e⟩

/-- The number nearest to a quotient; past the greatest one it is zero. -/
def ofRatio (negative : Bool) (num den : Nat) : Binary64 :=
  (ofRatio? negative num den).getD (zero negative)

/-- The number nearest to a natural number. -/
def ofNat (n : Nat) : Binary64 :=
  ofRatio false n 1

/-- The quotient by a natural number. -/
def divNat (x : Binary64) (d : Nat) : Binary64 :=
  let (num, den) := x.ratio
  ofRatio x.negative num (den * d)

/-- The difference of two numbers; equal ones differ by a zero without a minus sign. -/
def sub (x y : Binary64) : Binary64 :=
  let (a, b) := x.ratio
  let (c, d) := y.ratio
  let signed := fun (negative : Bool) (n : Nat) => if negative then -(n : Int) else n
  let diff : Int := signed x.negative (a * d) - signed y.negative (c * b)
  if diff = 0 then zero (x.negative && !y.negative && a == 0)
  else ofRatio (diff < 0) diff.natAbs (b * d)

instance : Sub Binary64 := ⟨sub⟩

/-- The number rounded to some decimal places, from the middle to the even last digit. -/
def roundTo (places : Nat) (x : Binary64) : Binary64 :=
  let (num, den) := x.ratio
  ofRatio x.negative (roundHalfEven (num * Nat.pow 10 places) den) (Nat.pow 10 places)

end Binary64

end LicenseDepot.Numeral
