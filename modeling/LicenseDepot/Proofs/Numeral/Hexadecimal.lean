import LicenseDepot.Proofs.LicenseId.Canonical

/-!
# Hexadecimal numerals in either case

The reader of integers takes the letters of a numeral in either case, and writers use both: small
ones for identifiers, capital ones for the code points that reports name. The case changes nothing
about the value (`valueOf_map_toLower`), so a numeral that is small once its case is dropped has the
value of the small one, and the number that a report names is the one that it was written for
(`valueOf_upperHex`).
-/

namespace LicenseDepot

open Text Numeral

namespace Text

theorem toNat_toLower (c : Char) :
    c.toLower.toNat = if 65 ≤ c.toNat ∧ c.toNat ≤ 90 then c.toNat + 32 else c.toNat := by
  have hdistance : ('a'.val - 'A'.val).toNat = 32 := by decide
  unfold Char.toLower
  split
  · rename_i h
    have hlow : 65 ≤ c.toNat := h.1
    have hhigh : c.toNat ≤ 90 := h.2
    have hsum : (c.val + ('a'.val - 'A'.val)).toNat = (c.toNat + 32) % 2 ^ 32 := by
      rw [UInt32.toNat_add, hdistance]
      rfl
    rw [if_pos ⟨hlow, hhigh⟩]
    exact hsum.trans (Nat.mod_eq_of_lt (by omega))
  · rename_i h
    rw [if_neg]
    exact h

theorem toNat_toUpper (c : Char) :
    c.toUpper.toNat = if 97 ≤ c.toNat ∧ c.toNat ≤ 122 then c.toNat - 32 else c.toNat := by
  -- The distance is negative here, so that the sum of the words wraps around.
  have hdistance : ('A'.val - 'a'.val).toNat = 2 ^ 32 - 32 := by decide
  unfold Char.toUpper
  split
  · rename_i h
    have hlow : 97 ≤ c.toNat := h.1
    have hhigh : c.toNat ≤ 122 := h.2
    have hsum : (c.val + ('A'.val - 'a'.val)).toNat = (c.toNat + (2 ^ 32 - 32)) % 2 ^ 32 := by
      rw [UInt32.toNat_add, hdistance]
      rfl
    rw [if_pos ⟨hlow, hhigh⟩]
    refine hsum.trans ?_
    omega
  · rename_i h
    rw [if_neg]
    exact h

theorem alphanumericValue?_eq (c : Char) :
    alphanumericValue? c =
      if 48 ≤ c.toNat ∧ c.toNat ≤ 57 then some (c.toNat - 48)
      else if 97 ≤ c.toNat ∧ c.toNat ≤ 122 then some (c.toNat - 87)
      else if 65 ≤ c.toNat ∧ c.toNat ≤ 90 then some (c.toNat - 55)
      else none := rfl

theorem alphanumericValue?_toLower (c : Char) :
    alphanumericValue? c.toLower = alphanumericValue? c := by
  rw [alphanumericValue?_eq, alphanumericValue?_eq, toNat_toLower]
  grind

theorem alphanumericValue?_toUpper (c : Char) :
    alphanumericValue? c.toUpper = alphanumericValue? c := by
  rw [alphanumericValue?_eq, alphanumericValue?_eq, toNat_toUpper]
  grind

end Text

namespace Numeral.Integer

theorem digitValue?_toLower (base : Nat) (c : Char) :
    digitValue? base c.toLower = digitValue? base c := by
  rw [digitValue?, alphanumericValue?_toLower, digitValue?]

theorem digitValue?_toUpper (base : Nat) (c : Char) :
    digitValue? base c.toUpper = digitValue? base c := by
  rw [digitValue?, alphanumericValue?_toUpper, digitValue?]

/-- The value of a numeral depends on the values of its digits alone. -/
theorem valueOf_map {base : Nat} {f : Char → Char}
    (h : ∀ c, digitValue? base (f c) = digitValue? base c) (s : List Char) :
    valueOf base (s.map f) = valueOf base s := by
  rw [valueOf, List.foldl_map, valueOf]
  simp only [h]

/-- The case of the letters of a numeral does not count. -/
theorem valueOf_map_toLower (base : Nat) (s : List Char) :
    valueOf base (s.map Char.toLower) = valueOf base s :=
  valueOf_map (digitValue?_toLower base) s

theorem valueOf_append_singleton (base : Nat) (s : List Char) (c : Char) :
    valueOf base (s ++ [c]) = valueOf base s * base + (digitValue? base c).getD 0 := by
  rw [valueOf, List.foldl_append]
  rfl

theorem valueOf_replicate_zero_append (base k : Nat) (s : List Char) :
    valueOf base (List.replicate k '0' ++ s) = valueOf base s := by
  induction k with
  | zero => rfl
  | succ k ih =>
    have hzero : (digitValue? base '0').getD 0 = 0 := by
      unfold digitValue?
      cases base <;> rfl
    rw [List.replicate_succ, List.cons_append, valueOf, List.foldl_cons, hzero, Nat.zero_mul]
    exact ih

/-- A number is the value of its hexadecimal numeral without leading zeros. -/
theorem valueOf_toDigits (n : Nat) : valueOf 16 (Nat.toDigits 16 n) = n := by
  have hdigit : ∀ d < 16, digitValue? 16 d.digitChar = some d := by decide
  induction n using Nat.strongRecOn with
  | _ n ih =>
    rcases Nat.lt_or_ge n 16 with hlt | hge
    · rw [Nat.toDigits_of_lt_base hlt]
      show valueOf 16 ([] ++ [n.digitChar]) = n
      rw [valueOf_append_singleton, hdigit n hlt]
      exact Nat.zero_add n
    · have hlast : n % 16 < 16 := Nat.mod_lt n (by decide)
      have hsplit : Nat.toDigits 16 n
          = Nat.toDigits 16 (n / 16) ++ [(n % 16).digitChar] := by
        conv_lhs => rw [← Nat.div_add_mod n 16]
        rw [← Nat.toDigits_append_toDigits (by decide) (by omega) hlast,
          Nat.toDigits_of_lt_base hlast]
      rw [hsplit, valueOf_append_singleton, ih (n / 16) (by omega), hdigit _ hlast,
        Option.getD_some]
      omega

/-- A number is the value of its hexadecimal numeral in capital letters. -/
theorem valueOf_upperHex (width n : Nat) : valueOf 16 (upperHex width n) = n := by
  rw [upperHex, valueOf_replicate_zero_append, valueOf_map (digitValue?_toUpper 16),
    valueOf_toDigits]

theorem le_length_upperHex (width n : Nat) : width ≤ (upperHex width n).length := by
  simp only [upperHex, List.length_append, List.length_replicate]
  omega

end Numeral.Integer

end LicenseDepot
