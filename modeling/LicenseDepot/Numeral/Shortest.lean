import LicenseDepot.Numeral.Binary64

/-!
# Shortest decimals

A floating-point number is written with the fewest decimal digits that read back as the number,
and among those with the ones nearest to it. The search goes through the grids of one to seventeen
digits and looks at the two grid points next to the number; `shows` says which points read back.
How the digits are laid out is the business of `Layout`.
-/

namespace LicenseDepot.Numeral

/-- The digits of a decimal and the place of its point: `digits` counts units of
`10 ^ (point - width)`, and `width` is the number of digits. -/
structure Decimal where
  digits : Nat
  width : Nat
  point : Int
  deriving DecidableEq, Repr

namespace Binary64

/-- A power of ten as a quotient. -/
def powerOfTen (e : Int) : Nat × Nat :=
  if e < 0 then (1, Nat.pow 10 e.natAbs) else (Nat.pow 10 e.natAbs, 1)

/-- The ends of the interval of reals that are nearest to a positive number, in units of a quarter
of what its significand counts. Below a power of two the numbers lie half as far apart. -/
def quarterEnds (x : Binary64) : Nat × Nat :=
  let m := x.significand
  (if m = Nat.pow 2 52 ∧ minExponent < x.exponent then 4 * m - 1 else 4 * m - 2, 4 * m + 2)

/-- Whether a decimal reads back as a positive number. The ends of the interval do so only for an
even significand. -/
def shows (x : Binary64) (digits : Nat) (exponent : Int) : Bool :=
  let (lo, hi) := quarterEnds x
  let (p, q) := powerOfTwo (x.exponent - 2)
  let (t, u) := powerOfTen exponent
  let point := digits * t * q
  let low := lo * p * u
  let high := hi * p * u
  if x.significand % 2 = 0 then decide (low ≤ point) && decide (point ≤ high)
  else decide (low < point) && decide (point < high)

/-- The place of the decimal point of a positive quotient: the least power of ten above it. The
search starts at a place that is not too high. -/
def pointOf (num den : Nat) : Int :=
  let start := ((Nat.log2 num : Int) - Nat.log2 den - 1) * 30103 / 100000 - 1
  climb 8 start
where
  /-- Moves the point up, at most `left` places. -/
  climb (left : Nat) (k : Int) : Int :=
    match left with
    | 0 => k
    | left + 1 =>
      let (t, u) := powerOfTen k
      if num * u < den * t then k else climb left (k + 1)

/-- The digits of a width that are nearest to a positive number among those that read back. -/
def digitsOfWidth? (x : Binary64) (num den : Nat) (point : Int) (width : Nat) : Option Nat :=
  let e := point - width
  let (t, u) := powerOfTen e
  let low := num * u / (den * t)
  match x.shows low e && low != 0, x.shows (low + 1) e with
  | true, true => some (roundHalfEven (num * u) (den * t))
  | true, false => some low
  | false, true => some (low + 1)
  | false, false => none

/-- The shortest decimal of a positive number. -/
def shortest (x : Binary64) : Decimal :=
  let (num, den) := x.ratio
  let point := pointOf num den
  let found := (List.range' 1 17).findSome? fun width =>
    (x.digitsOfWidth? num den point width).map fun digits => (digits, width)
  match found with
  | some (digits, width) =>
    if digits = Nat.pow 10 width then ⟨1, 1, point + 1⟩ else ⟨digits, width, point⟩
  | none => ⟨0, 1, point⟩

/-- Which decimals are written with a point in its place and which with a power of ten. -/
structure Layout where
  /-- The least place of the point that is written in its place. -/
  least : Int
  /-- The greatest one. -/
  greatest : Int
  /-- The least number of digits of a power of ten. -/
  exponentWidth : Nat

/-- Numbers from 0.0001 up to, and not including, 10^16 have their point in its place; a power of
ten has two digits at least. -/
def plainLayout : Layout := ⟨-3, 16, 2⟩

/-- The text of a decimal; there is always a digit on both sides of the point. -/
def Layout.write (layout : Layout) (d : Decimal) : List Char :=
  let digits := Nat.toDigits 10 d.digits
  if d.point < layout.least ∨ layout.greatest < d.point then
    let e := d.point - 1
    let size := Nat.toDigits 10 e.natAbs
    digits.take 1 ++ (if digits.length = 1 then [] else '.' :: digits.drop 1)
      ++ 'e' :: (if e < 0 then '-' else '+')
      :: List.replicate (layout.exponentWidth - size.length) '0' ++ size
  else if d.point ≤ 0 then '0' :: '.' :: List.replicate d.point.natAbs '0' ++ digits
  else if d.point.natAbs < digits.length then
    digits.take d.point.natAbs ++ '.' :: digits.drop d.point.natAbs
  else digits ++ List.replicate (d.point.natAbs - digits.length) '0' ++ ".0".toList

/-- The text of a number. -/
def chars (x : Binary64) : List Char :=
  let unsigned := if x.significand = 0 then "0.0".toList else plainLayout.write x.shortest
  if x.negative then '-' :: unsigned else unsigned

/-- The text of a number as a string. -/
def toText (x : Binary64) : String :=
  String.ofList x.chars

end Binary64

end LicenseDepot.Numeral
