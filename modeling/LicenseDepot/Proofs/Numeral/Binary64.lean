import LicenseDepot.Numeral.Shortest
import Mathlib.Algebra.Order.Archimedean.Basic
import Mathlib.Algebra.Order.Field.Power
import Mathlib.Data.Rat.Cast.Order
import Mathlib.Tactic.FieldSimp
import Mathlib.Tactic.Linarith
import Mathlib.Tactic.Positivity

/-!
# Rounding to the double format

Quotients are read as rationals here. Around every number of the format lies the interval of the
rationals that are nearest to it; its ends belong to the number if the significand is even. Main
statement: a quotient from the interval of a number is rounded to that number
(`ofRatio?_of_isNearest`). It rests on two facts, that a quotient is rounded to the integer half
around it (`roundHalfEven_eq`) and that the exponent is that of the power of two below the quotient
(`exponentOf_eq`).
-/

namespace LicenseDepot.Numeral

/-- Whether a rational lies in an interval, which has its ends only if it is closed. -/
structure Between (closed : Prop) (low high v : ℚ) : Prop where
  low_le : low ≤ v
  le_high : v ≤ high
  inside : ¬ closed → low < v ∧ v < high

namespace Between

variable {closed : Prop} {low high v : ℚ}

theorem iff_of_closed (h : closed) : Between closed low high v ↔ low ≤ v ∧ v ≤ high :=
  ⟨fun b => ⟨b.low_le, b.le_high⟩, fun ⟨hlow, hhigh⟩ => ⟨hlow, hhigh, fun hopen => absurd h hopen⟩⟩

theorem iff_of_open (h : ¬ closed) : Between closed low high v ↔ low < v ∧ v < high :=
  ⟨fun b => b.inside h, fun ⟨hlow, hhigh⟩ => ⟨hlow.le, hhigh.le, fun _ => ⟨hlow, hhigh⟩⟩⟩

theorem of_lt (hlow : low < v) (hhigh : v < high) : Between closed low high v :=
  ⟨hlow.le, hhigh.le, fun _ => ⟨hlow, hhigh⟩⟩

theorem mono {low' high' : ℚ} (h : Between closed low high v) (hlow : low' ≤ low)
    (hhigh : high ≤ high') : Between closed low' high' v :=
  ⟨hlow.trans h.low_le, h.le_high.trans hhigh, fun hopen =>
    ⟨hlow.trans_lt (h.inside hopen).1, (h.inside hopen).2.trans_le hhigh⟩⟩

theorem mul_iff {c : ℚ} (hc : 0 < c) :
    Between closed (low * c) (high * c) v ↔ Between closed low high (v / c) := by
  have hlow : low < v / c ↔ low * c < v := lt_div_iff₀ hc
  have hhigh : v / c < high ↔ v < high * c := div_lt_iff₀ hc
  constructor
  · intro h
    exact ⟨(le_div_iff₀ hc).2 h.low_le, (div_le_iff₀ hc).2 h.le_high, fun hopen =>
      ⟨hlow.2 (h.inside hopen).1, hhigh.2 (h.inside hopen).2⟩⟩
  · intro h
    exact ⟨(le_div_iff₀ hc).1 h.low_le, (div_le_iff₀ hc).1 h.le_high, fun hopen =>
      ⟨hlow.1 (h.inside hopen).1, hhigh.1 (h.inside hopen).2⟩⟩

end Between

/-- A quotient at most one half away from an integer is rounded to it, from the middle if the
integer is even. -/
theorem roundHalfEven_eq {num den m : Nat} (hd : 0 < den)
    (h : Between (m % 2 = 0) ((m : ℚ) - 1 / 2) (m + 1 / 2) (num / den)) :
    roundHalfEven num den = m := by
  have hd' : (0 : ℚ) < den := by positivity
  set q := num / den with hq
  set r := num % den with hr
  have hrd : r < den := Nat.mod_lt _ hd
  have hv : (num : ℚ) / den = q + r / den := by
    have hsplit : (num : ℚ) = den * q + r := by exact_mod_cast (Nat.div_add_mod num den).symm
    rw [hsplit]
    field_simp
  have hr1 : (r : ℚ) / den < 1 := by
    rw [div_lt_one hd']
    exact_mod_cast hrd
  have hr0 : (0 : ℚ) ≤ r / den := by positivity
  obtain ⟨hlow, hhigh, hinside⟩ := h
  rw [hv] at hlow hhigh hinside
  have hqm : q ≤ m := by
    have : (q : ℚ) < (m + 1 : Nat) := by
      push_cast
      linarith
    exact Nat.lt_succ_iff.1 (by exact_mod_cast this)
  have hmq : m ≤ q + 1 := by
    have : (m : ℚ) < (q + 2 : Nat) := by
      push_cast
      linarith
    exact Nat.lt_succ_iff.1 (by exact_mod_cast this)
  have hhalf : (r : ℚ) / den < 1 / 2 ↔ 2 * r < den := by
    rw [div_lt_div_iff₀ hd' two_pos, one_mul, mul_comm]
    exact_mod_cast Iff.rfl
  have hhalf' : (1 : ℚ) / 2 < r / den ↔ den < 2 * r := by
    rw [div_lt_div_iff₀ two_pos hd', one_mul, mul_comm (r : ℚ)]
    exact_mod_cast Iff.rfl
  rw [roundHalfEven, ← hq, ← hr]
  -- The integer is the quotient or the next one; in the middle it is even, so one of the two.
  rcases (by omega : m = q ∨ m = q + 1) with rfl | rfl
  · have hle : ¬ den < 2 * r := by
      rw [← hhalf', not_lt]
      linarith
    have heven : ¬ 2 * r < den → q % 2 = 0 := by
      intro hmid
      by_contra hodd
      refine hmid (hhalf.1 ?_)
      linarith [(hinside hodd).2]
    grind
  · push_cast at hlow hinside
    have hle : ¬ 2 * r < den := by
      rw [← hhalf, not_lt]
      linarith
    have heven : ¬ den < 2 * r → (q + 1) % 2 = 0 := by
      intro hmid
      by_contra hodd
      refine hmid (hhalf'.1 ?_)
      linarith [(hinside hodd).1]
    grind

namespace Binary64

/-! ## Powers of two and of ten -/

theorem powerOfTwo_pos (e : Int) : 0 < (powerOfTwo e).1 ∧ 0 < (powerOfTwo e).2 := by
  unfold powerOfTwo
  split
  · exact ⟨Nat.one_pos, Nat.pow_pos Nat.two_pos⟩
  · exact ⟨Nat.pow_pos Nat.two_pos, Nat.one_pos⟩

theorem powerOfTwo_div (e : Int) : ((powerOfTwo e).1 : ℚ) / (powerOfTwo e).2 = 2 ^ e := by
  unfold powerOfTwo
  split
  · next h =>
    obtain ⟨n, rfl⟩ := Int.eq_negSucc_of_lt_zero h
    simp [zpow_negSucc]
  · next h =>
    obtain ⟨n, rfl⟩ := Int.eq_ofNat_of_zero_le (not_lt.1 h)
    simp

theorem powerOfTen_pos (e : Int) : 0 < (powerOfTen e).1 ∧ 0 < (powerOfTen e).2 := by
  unfold powerOfTen
  split
  · exact ⟨Nat.one_pos, Nat.pow_pos (by decide)⟩
  · exact ⟨Nat.pow_pos (by decide), Nat.one_pos⟩

theorem powerOfTen_div (e : Int) : ((powerOfTen e).1 : ℚ) / (powerOfTen e).2 = 10 ^ e := by
  unfold powerOfTen
  split
  · next h =>
    obtain ⟨n, rfl⟩ := Int.eq_negSucc_of_lt_zero h
    simp [zpow_negSucc]
  · next h =>
    obtain ⟨n, rfl⟩ := Int.eq_ofNat_of_zero_le (not_lt.1 h)
    simp

/-- A quotient of two quotients, written as one. -/
theorem quotient_div (num den p q : Nat) :
    ((num * q : Nat) : ℚ) / (den * p : Nat) = (num / den) / (p / q) := by
  push_cast
  rw [div_div_div_eq]

/-- A positive number lies between the power of two of its logarithm and the next one. -/
theorem log2_bounds {n : Nat} (h : 0 < n) :
    (2 : ℚ) ^ (n.log2 : Int) ≤ n ∧ (n : ℚ) < 2 ^ ((n.log2 : Int) + 1) := by
  constructor
  · rw [zpow_natCast]
    exact_mod_cast Nat.log2_self_le h.ne'
  · rw [← Nat.cast_succ, zpow_natCast]
    exact_mod_cast Nat.lt_log2_self

/-- The logarithms of its parts give a positive quotient up to a factor of two on both sides. -/
theorem quotient_bounds {num den : Nat} (hn : 0 < num) (hd : 0 < den) :
    (2 : ℚ) ^ ((num.log2 : Int) - den.log2 - 1) < num / den ∧
      (num : ℚ) / den < 2 ^ ((num.log2 : Int) - den.log2 + 1) := by
  obtain ⟨hnlow, hnhigh⟩ := log2_bounds hn
  obtain ⟨hdlow, hdhigh⟩ := log2_bounds hd
  have hd' : (0 : ℚ) < den := by positivity
  rw [lt_div_iff₀ hd', div_lt_iff₀ hd']
  constructor
  · calc (2 : ℚ) ^ ((num.log2 : Int) - den.log2 - 1) * den
        < 2 ^ ((num.log2 : Int) - den.log2 - 1) * 2 ^ ((den.log2 : Int) + 1) := by gcongr
      _ = 2 ^ (num.log2 : Int) := by
        rw [← zpow_add₀ two_ne_zero]
        congr 1
        omega
      _ ≤ num := hnlow
  · calc (num : ℚ) < 2 ^ ((num.log2 : Int) + 1) := hnhigh
      _ = 2 ^ ((num.log2 : Int) - den.log2 + 1) * 2 ^ (den.log2 : Int) := by
        rw [← zpow_add₀ two_ne_zero]
        congr 1
        omega
      _ ≤ 2 ^ ((num.log2 : Int) - den.log2 + 1) * den := by gcongr

theorem lt_of_two_zpow_lt {a b : Int} (h : (2 : ℚ) ^ a < 2 ^ b) : a < b :=
  (zpow_lt_zpow_iff_right₀ one_lt_two).1 h

/-! ## Rounding -/

/-- The exponent of a quotient is that of the power of two below it, less the fifty-two further
digits of a significand. -/
theorem exponentOf_eq_max {num den : Nat} {k : Int} (hn : 0 < num) (hd : 0 < den)
    (hlow : (2 : ℚ) ^ k ≤ num / den) (hhigh : (num : ℚ) / den < 2 ^ (k + 1)) :
    exponentOf num den = max minExponent (k - 52) := by
  obtain ⟨hl, hh⟩ := quotient_bounds hn hd
  have hk1 := lt_of_two_zpow_lt (hlow.trans_lt hh)
  have hk2 := lt_of_two_zpow_lt (hl.trans hhigh)
  set a : Int := (num.log2 : Int) - den.log2 with ha
  have hreached : den * (powerOfTwo a).1 ≤ num * (powerOfTwo a).2 ↔ (2 : ℚ) ^ a ≤ num / den := by
    rw [← powerOfTwo_div, div_le_div_iff₀ (by exact_mod_cast (powerOfTwo_pos a).2) (by positivity),
      mul_comm den]
    exact_mod_cast Iff.rfl
  rw [exponentOf, ← ha]
  simp only [hreached, decide_eq_true_eq]
  rcases (by omega : k = a ∨ k = a - 1) with rfl | rfl
  · rw [if_pos hlow]
  · rw [sub_add_cancel] at hhigh
    rw [if_neg (not_le.2 hhigh)]
    congr 1
    omega

/-- The exponent of a quotient that is a significand of fifty-three digits in its units, or of fewer
ones in the least units. -/
theorem exponentOf_eq {num den : Nat} {e : Int} (hn : 0 < num) (hd : 0 < den)
    (hleast : minExponent ≤ e) (hhigh : (num : ℚ) / den < 2 ^ (e + 53))
    (hlow : (2 : ℚ) ^ (e + 52) ≤ num / den ∨ e = minExponent) : exponentOf num den = e := by
  have hv : (0 : ℚ) < num / den := by positivity
  obtain ⟨k, hk, hk'⟩ := exists_mem_Ico_zpow hv one_lt_two
  rw [exponentOf_eq_max hn hd hk hk']
  have hke := lt_of_two_zpow_lt (hk.trans_lt hhigh)
  rcases hlow with hlow | rfl
  · have hek := lt_of_two_zpow_lt (hlow.trans_lt hk')
    omega
  · omega

/-- A quotient close to an integer in units of its exponent is rounded to that integer; past the
last digit of a significand the exponent goes up. -/
theorem ofRatio?_eq {negative : Bool} {num den m : Nat} {e : Int} (hn : 0 < num) (hd : 0 < den)
    (he : exponentOf num den = e)
    (hm : Between (m % 2 = 0) ((m : ℚ) - 1 / 2) (m + 1 / 2) (num / den / 2 ^ e)) :
    ofRatio? negative num den =
      if m = 2 ^ 53 then (if maxExponent < e + 1 then none else some ⟨negative, 2 ^ 52, e + 1⟩)
      else if maxExponent < e then none else some ⟨negative, m, e⟩ := by
  rw [← powerOfTwo_div, ← quotient_div] at hm
  have hround : roundHalfEven (num * (powerOfTwo e).2) (den * (powerOfTwo e).1) = m :=
    roundHalfEven_eq (Nat.mul_pos hd (powerOfTwo_pos e).1) hm
  rw [ofRatio?, if_neg hn.ne', he]
  simp only [hround, Nat.pow_eq]
  by_cases h : m = 2 ^ 53
  · simp only [h, if_true]
  · simp only [h, if_false]

/-! ## Numbers and the rationals nearest to them -/

/-- A number as the format stores it: its significand has fifty-three digits, unless its exponent is
the least one. -/
structure IsCanonical (x : Binary64) : Prop where
  significand_lt : x.significand < 2 ^ 53
  least_le : minExponent ≤ x.exponent
  le_greatest : x.exponent ≤ maxExponent
  full : 2 ^ 52 ≤ x.significand ∨ x.exponent = minExponent

instance (x : Binary64) : Decidable x.IsCanonical :=
  decidable_of_iff (x.significand < 2 ^ 53 ∧ minExponent ≤ x.exponent ∧ x.exponent ≤ maxExponent ∧
    (2 ^ 52 ≤ x.significand ∨ x.exponent = minExponent))
    ⟨fun ⟨h1, h2, h3, h4⟩ => ⟨h1, h2, h3, h4⟩, fun ⟨h1, h2, h3, h4⟩ => ⟨h1, h2, h3, h4⟩⟩

/-- The size of a number. -/
def size (x : Binary64) : ℚ := x.significand * 2 ^ x.exponent

/-- Whether a positive rational is nearest to a number, the middle between two counting for the one
with the even significand. -/
def IsNearest (x : Binary64) (v : ℚ) : Prop :=
  Between (x.significand % 2 = 0) (x.quarterEnds.1 * 2 ^ (x.exponent - 2))
    (x.quarterEnds.2 * 2 ^ (x.exponent - 2)) v

variable {x : Binary64}

theorem ratio_div : (x.ratio.1 : ℚ) / x.ratio.2 = x.size := by
  rw [ratio, size, ← powerOfTwo_div, ← mul_div_assoc]
  push_cast
  rfl

theorem unit_pos (x : Binary64) : (0 : ℚ) < 2 ^ x.exponent := zpow_pos two_pos _

/-- The interval of a number in units of its significand. -/
theorem isNearest_iff {v : ℚ} :
    x.IsNearest v ↔ Between (x.significand % 2 = 0) (x.quarterEnds.1 / 4) (x.quarterEnds.2 / 4)
      (v / 2 ^ x.exponent) := by
  have hquarter (n : ℚ) : n * 2 ^ (x.exponent - 2) = n / 4 * 2 ^ x.exponent := by
    rw [zpow_sub₀ two_ne_zero]
    norm_num
    ring
  rw [IsNearest, hquarter, hquarter, Between.mul_iff x.unit_pos]

theorem high_quarterEnds (x : Binary64) : (x.quarterEnds.2 : ℚ) / 4 = x.significand + 1 / 2 := by
  rw [quarterEnds]
  push_cast
  ring

/-- The lower end lies half a unit below the number, or a quarter of one if the number is a power of
two. -/
theorem low_quarterEnds (hpos : 0 < x.significand) :
    (x.quarterEnds.1 : ℚ) / 4 =
      if x.significand = 2 ^ 52 ∧ minExponent < x.exponent then (x.significand : ℚ) - 1 / 4
      else x.significand - 1 / 2 := by
  rw [quarterEnds, Nat.pow_eq]
  by_cases h : x.significand = 2 ^ 52 ∧ minExponent < x.exponent
  · rw [if_pos h, if_pos h, Nat.cast_sub (by omega)]
    push_cast
    ring
  · rw [if_neg h, if_neg h, Nat.cast_sub (by omega)]
    push_cast
    ring

/-- The rationals nearest to a number are at most half a unit of its significand away. -/
theorem IsNearest.between {v : ℚ} (h : x.IsNearest v) (hpos : 0 < x.significand) :
    Between (x.significand % 2 = 0) ((x.significand : ℚ) - 1 / 2) (x.significand + 1 / 2)
      (v / 2 ^ x.exponent) := by
  refine (isNearest_iff.1 h).mono ?_ x.high_quarterEnds.le
  rw [low_quarterEnds hpos]
  split <;> linarith

/-- Below a power of two the rationals nearest to it are at most a quarter of a unit away. -/
theorem IsNearest.low_le_of_power {v : ℚ} (h : x.IsNearest v) (hm : x.significand = 2 ^ 52)
    (he : minExponent < x.exponent) : (2 : ℚ) ^ 52 - 1 / 4 ≤ v / 2 ^ x.exponent := by
  have hlow := (isNearest_iff.1 h).low_le
  rw [low_quarterEnds (hm ▸ Nat.two_pow_pos 52), if_pos ⟨hm, he⟩, hm] at hlow
  exact_mod_cast hlow

/-- A quotient from the interval of a number is rounded to that number. -/
theorem ofRatio?_of_isNearest {num den : Nat} (hc : x.IsCanonical) (hpos : 0 < x.significand)
    (hd : 0 < den) (h : x.IsNearest (num / den)) : ofRatio? x.negative num den = some x := by
  obtain ⟨hlt, hleast, hgreatest, hfull⟩ := hc
  have hunit := x.unit_pos
  have hbetween := h.between hpos
  have hlow := hbetween.low_le
  have hhigh := hbetween.le_high
  have hm1 : (1 : ℚ) ≤ x.significand := by exact_mod_cast hpos
  have hm53 : (x.significand : ℚ) ≤ 2 ^ 53 - 1 := by
    rw [le_sub_iff_add_le]
    exact_mod_cast hlt
  have hn : 0 < num := by
    rw [Nat.pos_iff_ne_zero]
    rintro rfl
    rw [Nat.cast_zero, zero_div, zero_div] at hlow
    linarith
  have hpast : (num : ℚ) / den < 2 ^ (x.exponent + 53) := by
    rw [zpow_add₀ two_ne_zero, mul_comm, ← div_lt_iff₀ hunit]
    calc (num : ℚ) / den / 2 ^ x.exponent ≤ x.significand + 1 / 2 := hhigh
      _ < 2 ^ 53 := by linarith
  by_cases hsame : (2 : ℚ) ^ (x.exponent + 52) ≤ num / den ∨ x.exponent = minExponent
  · rw [ofRatio?_eq hn hd (exponentOf_eq hn hd hleast hpast hsame) hbetween, if_neg hlt.ne,
      if_neg (not_lt.2 hgreatest)]
  · -- Below a power of two the units are half as large, and rounding carries into the power.
    rw [not_or, not_le] at hsame
    obtain ⟨hbelow, hne⟩ := hsame
    have hunits : (num : ℚ) / den / 2 ^ x.exponent < 2 ^ 52 := by
      rw [div_lt_iff₀ hunit, mul_comm, ← zpow_natCast, ← zpow_add₀ two_ne_zero]
      exact hbelow
    have hm52 : x.significand = 2 ^ 52 := by
      have hge : 2 ^ 52 ≤ x.significand := hfull.resolve_right hne
      have : (x.significand : ℚ) < (2 ^ 52 + 1 : Nat) := by
        push_cast
        linarith
      have hle : x.significand < 2 ^ 52 + 1 := by exact_mod_cast this
      omega
    have hquarter := h.low_le_of_power hm52 (lt_of_le_of_ne hleast (Ne.symm hne))
    have hhalf : (num : ℚ) / den / 2 ^ (x.exponent - 1) = 2 * (num / den / 2 ^ x.exponent) := by
      rw [zpow_sub₀ two_ne_zero]
      field_simp
    have hexponent : exponentOf num den = x.exponent - 1 := by
      refine exponentOf_eq hn hd ?_ ?_ (.inl ?_)
      · omega
      · rw [show x.exponent - 1 + 53 = x.exponent + 52 by ring]
        exact hbelow
      · rw [show x.exponent - 1 + 52 = x.exponent + 51 by ring, zpow_add₀ two_ne_zero, mul_comm,
          ← le_div_iff₀ hunit]
        calc (2 : ℚ) ^ (51 : Int) ≤ (2 : ℚ) ^ 52 - 1 / 4 := by norm_num
          _ ≤ (num : ℚ) / den / 2 ^ x.exponent := hquarter
    have hcarry : Between (2 ^ 53 % 2 = 0) (((2 ^ 53 : Nat) : ℚ) - 1 / 2) ((2 ^ 53 : Nat) + 1 / 2)
        (num / den / 2 ^ (x.exponent - 1)) := by
      rw [hhalf]
      push_cast
      refine ⟨?_, ?_, fun hopen => absurd (by norm_num) hopen⟩
      · linarith
      · linarith
    rw [ofRatio?_eq hn hd hexponent hcarry, if_pos rfl, if_neg]
    · rw [sub_add_cancel, ← hm52]
    · omega

end Binary64

end LicenseDepot.Numeral
