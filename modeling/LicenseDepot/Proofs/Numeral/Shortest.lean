import LicenseDepot.Proofs.Numeral.Binary64
import Mathlib.Data.Nat.Cast.Order.Field

/-!
# Shortest decimals read back

The digits that the search finds lie in the interval of the number, so they read back as it. Main
statement: `shows_shortest`, that the search ends with such digits and that they fill their width.
That it ends is because seventeen digits are enough: their grid is finer than the numbers are apart
(`isNearest_or_isNearest`).

The place of the point is looked for from a linear estimate on; `ten_zpow_le_two_zpow` and
`two_zpow_le_ten_zpow` bound its error over all exponents of the format.
-/

namespace LicenseDepot.Numeral.Binary64

variable {x : Binary64}

/-! ## Decimals next to a number -/

theorem shows_iff {digits : Nat} {k : Int} :
    x.shows digits k = true ↔ x.IsNearest (digits * 10 ^ k) := by
  have hp := powerOfTwo_pos (x.exponent - 2)
  have ht := powerOfTen_pos k
  have hq : (0 : ℚ) < (powerOfTwo (x.exponent - 2)).2 := by exact_mod_cast hp.2
  have hu : (0 : ℚ) < (powerOfTen k).2 := by exact_mod_cast ht.2
  rw [shows, IsNearest, ← powerOfTwo_div, ← powerOfTen_div, ← mul_div_assoc, ← mul_div_assoc,
    ← mul_div_assoc]
  dsimp only
  split
  · next heven =>
    rw [Between.iff_of_closed heven, div_le_div_iff₀ hq hu, div_le_div_iff₀ hu hq,
      Bool.and_eq_true, decide_eq_true_eq, decide_eq_true_eq]
    exact_mod_cast Iff.rfl
  · next hodd =>
    rw [Between.iff_of_open hodd, div_lt_div_iff₀ hq hu, div_lt_div_iff₀ hu hq,
      Bool.and_eq_true, decide_eq_true_eq, decide_eq_true_eq]
    exact_mod_cast Iff.rfl

/-- Everything from a number up to half a unit above it is nearest to it. -/
theorem isNearest_of_size_le {v : ℚ} (hpos : 0 < x.significand)
    (hlow : x.significand ≤ v / 2 ^ x.exponent)
    (hhigh : v / 2 ^ x.exponent < x.significand + 1 / 2) : x.IsNearest v := by
  refine isNearest_iff.2 (Between.of_lt ?_ ?_)
  · rw [low_quarterEnds hpos]
    split <;> linarith
  · rwa [high_quarterEnds]

/-- Everything from half a unit below a number up to it is nearest to it, unless the number is a
power of two. -/
theorem isNearest_of_le_size {v : ℚ} (hpos : 0 < x.significand) (hne : x.significand ≠ 2 ^ 52)
    (hlow : x.significand - 1 / 2 < v / 2 ^ x.exponent)
    (hhigh : v / 2 ^ x.exponent ≤ x.significand) : x.IsNearest v := by
  refine isNearest_iff.2 (Between.of_lt ?_ ?_)
  · rwa [low_quarterEnds hpos, if_neg fun h => hne h.1]
  · rw [high_quarterEnds]
    linarith

theorem size_div (x : Binary64) : x.size / 2 ^ x.exponent = x.significand := by
  rw [size, mul_div_assoc, div_self x.unit_pos.ne', mul_one]

/-- Of two points around a number, one is nearest to it if they are no farther apart than one unit
in the seventeenth digit. -/
theorem isNearest_or_isNearest {a g : ℚ} (hpos : 0 < x.significand)
    (hlt : x.significand < 2 ^ 53) (hlow : a ≤ x.size) (hhigh : x.size < a + g)
    (hgap : g * 10 ^ 16 ≤ x.size) : x.IsNearest a ∨ x.IsNearest (a + g) := by
  rw [← div_le_div_iff_of_pos_right x.unit_pos, size_div] at hlow
  rw [← div_lt_div_iff_of_pos_right x.unit_pos, size_div, add_div] at hhigh
  rw [← div_le_div_iff_of_pos_right x.unit_pos, size_div, mul_div_right_comm] at hgap
  have hm : (x.significand : ℚ) < 2 ^ 53 := by exact_mod_cast hlt
  by_cases hpower : x.significand = 2 ^ 52
  · have hm52 : (x.significand : ℚ) = 2 ^ 52 := by exact_mod_cast hpower
    refine .inr (isNearest_of_size_le hpos ?_ ?_)
    · rw [add_div]
      exact hhigh.le
    · rw [add_div]
      linarith
  · by_cases hnear : (x.significand : ℚ) - 1 / 2 < a / 2 ^ x.exponent
    · exact .inl (isNearest_of_le_size hpos hpower hnear hlow)
    · refine .inr (isNearest_of_size_le hpos ?_ ?_)
      · rw [add_div]
        exact hhigh.le
      · rw [add_div]
        linarith

/-! ## The place of the point -/

/-- Powers of ten and of two compare as their exponents do, each counted as often as makes the two
powers `base` and `base'` comparable. -/
theorem ten_zpow_le_two_zpow_of_mul_le {a b : Int} {n m : Nat} (hn : n ≠ 0) (h : n * a ≤ m * b)
    (hbase : ((10 : ℚ) ^ m) ^ b ≤ (2 ^ n) ^ b) : (10 : ℚ) ^ a ≤ 2 ^ b := by
  have hpow : ((10 : ℚ) ^ a) ^ n ≤ (2 ^ b) ^ n := by
    calc ((10 : ℚ) ^ a) ^ n = 10 ^ (n * a) := by rw [← zpow_natCast, ← zpow_mul, mul_comm]
      _ ≤ 10 ^ (m * b) := zpow_le_zpow_right₀ (by norm_num) h
      _ = (10 ^ m) ^ b := by rw [← zpow_natCast, ← zpow_mul]
      _ ≤ (2 ^ n) ^ b := hbase
      _ = (2 ^ b) ^ n := by rw [← zpow_natCast, ← zpow_natCast, ← zpow_mul, ← zpow_mul, mul_comm]
  exact (pow_le_pow_iff_left₀ (by positivity) (by positivity) hn).1 hpow

/-- The logarithm of two is about 0.30103: in the range of the format two places are enough for the
error. -/
theorem ten_zpow_le_two_zpow {a b : Int} (hb : |b| ≤ 1900) (h : 100000 * (a + 2) ≤ 30103 * b) :
    (10 : ℚ) ^ a ≤ 2 ^ b := by
  rw [abs_le] at hb
  rcases le_or_gt 0 b with hpos | hneg
  · -- `10 ^ 3 ≤ 2 ^ 10`
    refine ten_zpow_le_two_zpow_of_mul_le (n := 10) (m := 3) (by decide) (by omega) ?_
    exact zpow_le_zpow_left₀ hpos (by norm_num) (by norm_num)
  · -- `2 ^ 93 ≤ 10 ^ 28`
    refine ten_zpow_le_two_zpow_of_mul_le (n := 93) (m := 28) (by decide) (by omega) ?_
    have hinv : ((10 : ℚ) ^ 28)⁻¹ ^ (-b) ≤ (2 ^ 93)⁻¹ ^ (-b) :=
      zpow_le_zpow_left₀ (by omega) (by positivity) (by norm_num)
    rwa [inv_zpow', neg_neg, inv_zpow', neg_neg] at hinv

theorem two_zpow_le_ten_zpow {a b : Int} (hb : |b| ≤ 1900) (h : 30103 * b ≤ 100000 * (a - 2)) :
    (2 : ℚ) ^ b ≤ 10 ^ a := by
  have hinv : (10 : ℚ) ^ (-a) ≤ 2 ^ (-b) :=
    ten_zpow_le_two_zpow (by rwa [abs_neg]) (by omega)
  rw [zpow_neg, zpow_neg] at hinv
  exact (inv_le_inv₀ (by positivity) (by positivity)).1 hinv

section Point

variable {num den : Nat}

/-- Moving up from a place that is not too high, the point stops at the first power of ten above the
quotient, if there is one within reach. -/
theorem climb_bounds (hd : 0 < den) (left : Nat) (k : Int) (hlow : (10 : ℚ) ^ (k - 1) ≤ num / den)
    (hhigh : (num : ℚ) / den < 10 ^ (k + left)) :
    (10 : ℚ) ^ (pointOf.climb num den left k - 1) ≤ num / den ∧
      (num : ℚ) / den < 10 ^ pointOf.climb num den left k := by
  have hd' : (0 : ℚ) < den := by exact_mod_cast hd
  induction left generalizing k with
  | zero =>
    rw [Nat.cast_zero, add_zero] at hhigh
    exact ⟨hlow, hhigh⟩
  | succ left ih =>
    have hbelow : num * (powerOfTen k).2 < den * (powerOfTen k).1 ↔ (num : ℚ) / den < 10 ^ k := by
      have hu : (0 : ℚ) < (powerOfTen k).2 := by exact_mod_cast (powerOfTen_pos k).2
      rw [← powerOfTen_div, div_lt_div_iff₀ hd' hu, mul_comm den]
      exact_mod_cast Iff.rfl
    rw [pointOf.climb]
    simp only [hbelow]
    split
    · next h => exact ⟨hlow, h⟩
    · next h =>
      refine ih (k + 1) ?_ ?_
      · rw [add_sub_cancel_right]
        exact not_lt.1 h
      · rw [Nat.cast_succ, add_comm (left : Int), ← add_assoc] at hhigh
        exact hhigh

/-- The point stands behind the first digit of a quotient in the range of the format. -/
theorem pointOf_bounds (hn : 0 < num) (hd : 0 < den) (hlow : (2 : ℚ) ^ (-1074 : Int) ≤ num / den)
    (hhigh : (num : ℚ) / den < 2 ^ (1024 : Int)) :
    (10 : ℚ) ^ (pointOf num den - 1) ≤ num / den ∧ (num : ℚ) / den < 10 ^ pointOf num den := by
  obtain ⟨hl, hh⟩ := quotient_bounds hn hd
  have hle := lt_of_two_zpow_lt (hl.trans hhigh)
  have hge := lt_of_two_zpow_lt (hlow.trans_lt hh)
  rw [pointOf]
  set b : Int := (num.log2 : Int) - den.log2 with hb
  refine climb_bounds hd 8 _ ?_ ?_
  · refine (ten_zpow_le_two_zpow (b := b - 1) ?_ ?_).trans hl.le
    · rw [abs_le]
      omega
    · omega
  · refine hh.trans_le (two_zpow_le_ten_zpow ?_ ?_)
    · rw [abs_le]
      omega
    · omega

end Point

/-! ## The search -/

theorem roundHalfEven_eq_or (num den : Nat) :
    roundHalfEven num den = num / den ∨ roundHalfEven num den = num / den + 1 := by
  unfold roundHalfEven
  have := Nat.mod_two_eq_zero_or_one (num / den)
  grind

theorem ten_zpow_add (e : Int) (n : Nat) : (10 : ℚ) ^ (e + n) = (10 ^ n : Nat) * 10 ^ e := by
  rw [zpow_add₀ (by norm_num), zpow_natCast, mul_comm]
  push_cast
  rfl

section Width

variable {num den width digits : Nat} {point : Int}

/-- The greatest number of the grid of a width at or below a quotient. -/
def below (num den : Nat) (point : Int) (width : Nat) : Nat :=
  num * (powerOfTen (point - width)).2 / (den * (powerOfTen (point - width)).1)

/-- A quotient lies between two numbers of the grid. -/
theorem below_bounds (num : Nat) (hd : 0 < den) (point : Int) (width : Nat) :
    (below num den point width : ℚ) * 10 ^ (point - width) ≤ num / den ∧
      (num : ℚ) / den < (below num den point width + 1) * 10 ^ (point - width) := by
  rw [below]
  generalize point - width = e
  have hpos : 0 < den * (powerOfTen e).1 := Nat.mul_pos hd (powerOfTen_pos e).1
  have hpos' : (0 : ℚ) < (den * (powerOfTen e).1 : Nat) := by exact_mod_cast hpos
  have hten : (0 : ℚ) < 10 ^ e := by positivity
  have hunits : ((num * (powerOfTen e).2 : Nat) : ℚ) / (den * (powerOfTen e).1 : Nat)
      = num / den / 10 ^ e := by rw [quotient_div, powerOfTen_div]
  constructor
  · rw [← le_div_iff₀ hten, ← hunits]
    exact Nat.cast_div_le
  · rw [← div_lt_iff₀ hten, ← hunits, div_lt_iff₀ hpos', add_one_mul]
    exact_mod_cast Nat.lt_div_mul_add hpos

/-- Both numbers of the grid have its width, except that the upper one may be the next power of
ten. -/
theorem width_below (hd : 0 < den) (hlow : (10 : ℚ) ^ (point - 1) ≤ num / den)
    (hhigh : (num : ℚ) / den < 10 ^ point) (hwidth : 0 < width) :
    10 ^ (width - 1) ≤ below num den point width ∧ below num den point width < 10 ^ width := by
  obtain ⟨hl, hh⟩ := below_bounds num hd point width
  have hten : (0 : ℚ) < 10 ^ (point - width) := by positivity
  constructor
  · have hfirst : point - 1 = point - width + (width - 1 : Nat) := by omega
    rw [hfirst, ten_zpow_add] at hlow
    have := lt_of_mul_lt_mul_right (hlow.trans_lt hh) hten.le
    exact Nat.lt_succ_iff.1 (by exact_mod_cast this)
  · rw [← sub_add_cancel point width, ten_zpow_add] at hhigh
    have := lt_of_mul_lt_mul_right (hl.trans_lt hhigh) hten.le
    exact_mod_cast this

/-- The digits of a width read back and are one of the two numbers of the grid. -/
theorem nearest_of_digitsOfWidth? (h : x.digitsOfWidth? num den point width = some digits) :
    x.IsNearest (digits * 10 ^ (point - width)) ∧
      (digits = below num den point width ∨ digits = below num den point width + 1) := by
  have hround := roundHalfEven_eq_or (num * (powerOfTen (point - width)).2)
    (den * (powerOfTen (point - width)).1)
  rw [digitsOfWidth?] at h
  rw [← shows_iff, below]
  dsimp only at h
  split at h <;> grind

/-- If one of the two numbers of the grid reads back, then there are digits of the width. -/
theorem isSome_digitsOfWidth? (hbelow : below num den point width ≠ 0)
    (h : x.IsNearest (below num den point width * 10 ^ (point - width)) ∨
      x.IsNearest ((below num den point width + 1 : Nat) * 10 ^ (point - width))) :
    (x.digitsOfWidth? num den point width).isSome = true := by
  rw [← shows_iff, ← shows_iff] at h
  rw [below] at hbelow h
  rw [digitsOfWidth?]
  dsimp only
  split <;> grind

end Width

/-- How a decimal stands for a number: it reads back as the number, and its digits fill its
width. -/
structure Shows (x : Binary64) (d : Decimal) : Prop where
  nearest : x.IsNearest (d.digits * 10 ^ (d.point - d.width))
  width_pos : 0 < d.width
  le_digits : 10 ^ (d.width - 1) ≤ d.digits
  digits_lt : d.digits < 10 ^ d.width

theorem size_bounds (hc : x.IsCanonical) (hpos : 0 < x.significand) :
    (2 : ℚ) ^ (-1074 : Int) ≤ x.size ∧ x.size < 2 ^ (1024 : Int) := by
  have hlow : (1 : ℚ) ≤ x.significand := by exact_mod_cast hpos
  have hhigh : (x.significand : ℚ) < 2 ^ (53 : Int) := by exact_mod_cast hc.significand_lt
  rw [size]
  constructor
  · calc (2 : ℚ) ^ (-1074 : Int) = 1 * 2 ^ (-1074 : Int) := (one_mul _).symm
      _ ≤ x.significand * 2 ^ x.exponent :=
        mul_le_mul hlow (zpow_le_zpow_right₀ one_le_two hc.least_le) (by positivity) (by positivity)
  · calc (x.significand : ℚ) * 2 ^ x.exponent < 2 ^ (53 : Int) * 2 ^ x.exponent :=
        mul_lt_mul_of_pos_right hhigh x.unit_pos
      _ ≤ 2 ^ (53 : Int) * 2 ^ (971 : Int) := by
        gcongr
        · exact one_le_two
        · exact hc.le_greatest
      _ = 2 ^ (1024 : Int) := by rw [← zpow_add₀ two_ne_zero]; rfl

theorem ratio_pos (hpos : 0 < x.significand) : 0 < x.ratio.1 ∧ 0 < x.ratio.2 :=
  ⟨Nat.mul_pos hpos (powerOfTwo_pos _).1, (powerOfTwo_pos _).2⟩

/-- Seventeen digits are enough for a number. -/
theorem isSome_digitsOfWidth?_seventeen (hc : x.IsCanonical) (hpos : 0 < x.significand)
    {point : Int} (hlow : (10 : ℚ) ^ (point - 1) ≤ x.size) (hhigh : x.size < 10 ^ point) :
    (x.digitsOfWidth? x.ratio.1 x.ratio.2 point 17).isSome = true := by
  have hd := (ratio_pos hpos).2
  obtain ⟨hl, hh⟩ := below_bounds x.ratio.1 hd point 17
  rw [← ratio_div] at hlow hhigh
  have hwidth := (width_below hd hlow hhigh (by decide : 0 < 17)).1
  rw [ratio_div] at hlow hl hh
  have hgap : (10 : ℚ) ^ (point - (17 : Nat)) * 10 ^ 16 ≤ x.size := by
    rw [← zpow_natCast, ← zpow_add₀ (by norm_num)]
    exact (zpow_le_zpow_right₀ (by norm_num) (by omega)).trans hlow
  rw [add_one_mul] at hh
  refine isSome_digitsOfWidth? ?_ ?_
  · exact (Nat.lt_of_lt_of_le (Nat.pow_pos (by decide)) hwidth).ne'
  · rw [Nat.cast_succ (below _ _ _ _), add_one_mul]
    exact isNearest_or_isNearest hpos hc.significand_lt hl hh hgap

/-- The shortest decimal is made of the digits of a width that has some. -/
theorem shortest_cases (x : Binary64) {point : Int}
    (hpoint : pointOf x.ratio.1 x.ratio.2 = point) :
    (∃ digits width, 0 < width ∧ x.digitsOfWidth? x.ratio.1 x.ratio.2 point width = some digits ∧
      x.shortest = if digits = 10 ^ width then ⟨1, 1, point + 1⟩ else ⟨digits, width, point⟩) ∨
    x.digitsOfWidth? x.ratio.1 x.ratio.2 point 17 = none := by
  unfold shortest
  dsimp only
  rw [hpoint]
  generalize hfound : List.findSome? _ _ = found
  cases found with
  | some found =>
    obtain ⟨w, hw, hdigits⟩ := List.exists_of_findSome?_eq_some hfound
    obtain ⟨d, hd, rfl⟩ := Option.map_eq_some_iff.1 hdigits
    exact .inl ⟨d, w, (List.mem_range'_1.1 hw).1, hd, rfl⟩
  | none =>
    have hmem : 17 ∈ List.range' 1 17 := List.mem_range'_1.2 ⟨by decide, by decide⟩
    exact .inr (Option.map_eq_none_iff.1 (List.findSome?_eq_none_iff.1 hfound 17 hmem))

/-- The shortest decimal of a number reads back as it. -/
theorem shows_shortest (hc : x.IsCanonical) (hpos : 0 < x.significand) : x.Shows x.shortest := by
  have hd := (ratio_pos hpos).2
  have hsize := size_bounds hc hpos
  rw [← ratio_div] at hsize
  obtain ⟨hlow, hhigh⟩ := pointOf_bounds (ratio_pos hpos).1 hd hsize.1 hsize.2
  generalize hpoint : pointOf x.ratio.1 x.ratio.2 = point at hlow hhigh
  obtain ⟨digits, width, hwidth, hdigits, heq⟩ | hnone := shortest_cases x hpoint
  · obtain ⟨hnear, hbelow⟩ := nearest_of_digitsOfWidth? hdigits
    obtain ⟨hl, hh⟩ := width_below hd hlow hhigh hwidth
    rw [heq]
    split
    · next hpower =>
      refine ⟨?_, Nat.one_pos, le_rfl, show 1 < 10 ^ 1 by decide⟩
      rw [hpower, ← ten_zpow_add, sub_add_cancel] at hnear
      simpa using hnear
    · next hpower =>
      refine ⟨hnear, hwidth, ?_, ?_⟩
      · show 10 ^ (width - 1) ≤ digits
        omega
      · show digits < 10 ^ width
        omega
  · rw [ratio_div] at hlow hhigh
    have hsome := isSome_digitsOfWidth?_seventeen hc hpos hlow hhigh
    rw [hnone] at hsome
    cases hsome

end LicenseDepot.Numeral.Binary64
