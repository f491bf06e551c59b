import LicenseDepot.LicenseId
import LicenseDepot.Proofs.Numeral.Integer
import Mathlib.Algebra.Ring.Nat

/-!
# Reading back the canonical text of an identifier

The canonical text consists of thirty-two hexadecimal digits and the hyphens between them. It has no
decoration other than the hyphens, so the reader is left with the digits, and these spell the word
that was written. Main statement: `read_chars`.
-/

namespace LicenseDepot

open Text Numeral

theorem exists_of_mem_hex {width n : Nat} {c : Char} (h : c ∈ hex width n) :
    ∃ k, k < 16 ∧ c = hexDigit k := by
  induction width generalizing n with
  | zero => simp [hex] at h
  | succ width ih =>
    rw [hex, List.mem_append, List.mem_singleton] at h
    rcases h with h | h
    · exact ih h
    · exact ⟨n % 16, Nat.mod_lt _ (by decide), h⟩

theorem digitValue?_hexDigit : ∀ k, k < 16 → Integer.digitValue? 16 (hexDigit k) = some k := by
  decide

theorem isDigit_of_mem_hex {width n : Nat} {c : Char} (h : c ∈ hex width n) :
    Integer.IsDigit 16 c := by
  obtain ⟨k, hk, rfl⟩ := exists_of_mem_hex h
  rw [Integer.IsDigit, digitValue?_hexDigit k hk]
  rfl

theorem valueOf_hex (width n : Nat) : Integer.valueOf 16 (hex width n) = n % 16 ^ width := by
  induction width generalizing n with
  | zero => simp [hex, Integer.valueOf, Nat.mod_one]
  | succ width ih =>
    have hdigit := digitValue?_hexDigit (n % 16) (Nat.mod_lt _ (by decide))
    have hfront := ih (n / 16)
    rw [Integer.valueOf] at hfront
    rw [hex, Integer.valueOf, List.foldl_append, hfront, List.foldl_cons, List.foldl_nil, hdigit,
      Option.getD_some, Nat.pow_succ', Nat.mod_mul]
    omega

namespace LicenseId

theorem eq_of_value {id id' : LicenseId} (h : id.value = id'.value) : id = id' := by
  cases id
  cases id'
  cases h
  rfl

/-- Of two identifiers that differ, one is lower. -/
theorem ne_iff_lt_or_gt {id id' : LicenseId} :
    id ≠ id' ↔ id.value < id'.value ∨ id'.value < id.value := by
  constructor
  · intro h
    exact Nat.lt_or_gt_of_ne fun heq => h (eq_of_value (BitVec.eq_of_toNat_eq heq))
  · rintro (hlt | hlt) rfl
    · exact BitVec.lt_irrefl _ hlt
    · exact BitVec.lt_irrefl _ hlt

theorem without_eq_self {word s : List Char} (h : ∃ c ∈ word, c ∉ s) : without word s = s := by
  obtain ⟨c, hc, hs⟩ := h
  induction s with
  | nil => simp [without]
  | cons d s ih =>
    have hno : ¬ (word.isPrefixOf (d :: s) = true ∧ word ≠ []) := by
      rintro ⟨hpre, -⟩
      exact hs ((List.isPrefixOf_iff_prefix.1 hpre).subset hc)
    rw [without, if_neg hno, ih fun hmem => hs (List.mem_cons_of_mem d hmem)]

/-- A text that neither begins nor ends with a character of a class is not cut at its ends. -/
theorem dropWhile_both_eq_self {p : Char → Bool} {s : List Char} (h : ∀ c ∈ s, p c = false) :
    ((s.dropWhile p).reverse.dropWhile p).reverse = s := by
  have hself : ∀ t : List Char, (∀ c ∈ t, p c = false) → t.dropWhile p = t := by
    intro t ht
    cases t with
    | nil => rfl
    | cons c t => rw [List.dropWhile_cons_of_neg (by simp [ht c List.mem_cons_self])]
  rw [hself s h, hself s.reverse fun c hc => h c (List.mem_reverse.1 hc), List.reverse_reverse]

theorem mem_hyphenated {digits : List Char} {c : Char} (h : c ∈ hyphenated digits) :
    c = '-' ∨ c ∈ digits := by
  have hmid : ∀ n, c ∈ (digits.drop n).take 4 → c ∈ digits :=
    fun n hc => List.mem_of_mem_drop (List.mem_of_mem_take hc)
  simp only [hyphenated, List.mem_append, List.mem_cons] at h
  rcases h with (((h | h | h) | h | h) | h | h) | h | h
  · exact .inr (List.mem_of_mem_take h)
  · exact .inl h
  · exact .inr (hmid 8 h)
  · exact .inl h
  · exact .inr (hmid 12 h)
  · exact .inl h
  · exact .inr (hmid 16 h)
  · exact .inl h
  · exact .inr (List.mem_of_mem_drop h)

theorem mem_chars {id : LicenseId} {c : Char} (h : c ∈ id.chars) :
    c = '-' ∨ ∃ k, k < 16 ∧ c = hexDigit k :=
  (mem_hyphenated h).imp (fun h => h) exists_of_mem_hex

/-- Nothing that the reader of identifiers takes off stands in a canonical text. -/
theorem plain_of_mem_chars {id : LicenseId} {c : Char} (h : c ∈ id.chars) :
    isBlank c = false ∧ isBrace c = false ∧ c ≠ 'u' := by
  have hdigit : ∀ k, k < 16 →
      isBlank (hexDigit k) = false ∧ isBrace (hexDigit k) = false ∧ hexDigit k ≠ 'u' := by
    decide
  rcases mem_chars h with rfl | ⟨k, hk, rfl⟩
  · decide
  · exact hdigit k hk

theorem filter_hyphenated {digits : List Char} (h : ∀ c ∈ digits, c ≠ '-') :
    (hyphenated digits).filter (· != '-') = digits := by
  have hself : ∀ t : List Char, (∀ c ∈ t, c ∈ digits) → t.filter (· != '-') = t := by
    intro t ht
    rw [List.filter_eq_self]
    intro c hc
    simpa using h c (ht c hc)
  have hmid : ∀ n, ∀ c ∈ (digits.drop n).take 4, c ∈ digits :=
    fun n c hc => List.mem_of_mem_drop (List.mem_of_mem_take hc)
  have hhyphen : ∀ t : List Char, ('-' :: t).filter (· != '-') = t.filter (· != '-') := by
    intro t
    rw [List.filter_cons_of_neg (by decide)]
  simp only [hyphenated, List.filter_append, hhyphen]
  rw [hself _ fun c hc => List.mem_of_mem_take hc, hself _ (hmid 8), hself _ (hmid 12),
    hself _ (hmid 16), hself _ fun c hc => List.mem_of_mem_drop hc]
  -- The groups are consecutive, so they join from the last one to the first.
  have hjoin : ∀ n m, (digits.drop n).take m ++ digits.drop (n + m) = digits.drop n := by
    intro n m
    rw [← List.drop_drop, List.take_append_drop]
  rw [List.append_assoc, List.append_assoc, List.append_assoc, hjoin 16 4, hjoin 12 4, hjoin 8 4,
    List.take_append_drop]

theorem bare_chars (id : LicenseId) : bare id.chars = hex 32 id.value.toNat := by
  have htrim : trim id.chars = id.chars :=
    dropWhile_both_eq_self fun c hc => (plain_of_mem_chars hc).1
  have hbrace : unbraced id.chars = id.chars :=
    dropWhile_both_eq_self fun c hc => (plain_of_mem_chars hc).2.1
  have hu : 'u' ∉ id.chars := fun h => (plain_of_mem_chars h).2.2 rfl
  have hhyphen : ∀ c ∈ hex 32 id.value.toNat, c ≠ '-' :=
    fun c hc => Integer.ne_of_isDigit (isDigit_of_mem_hex hc) (.inl (by decide))
  rw [bare, htrim, without_eq_self ⟨'u', by decide, hu⟩, without_eq_self ⟨'u', by decide, hu⟩,
    hbrace, chars, filter_hyphenated hhyphen]

/-- An identifier is read back from its canonical text. -/
theorem read_chars (id : LicenseId) : read id.chars = .ok id := by
  have hlt : id.value.toNat < 16 ^ 32 := id.value.isLt
  have hread : Integer.read 16 (hex 32 id.value.toNat) = .ok (id.value.toNat : Int) := by
    rw [Integer.read_run (by decide) (by simp [hex]) (fun c hc => isDigit_of_mem_hex hc)
      (fun h => absurd h (by decide)), valueOf_hex, Nat.mod_eq_of_lt hlt]
  rw [read, bare_chars, if_pos (length_hex _ _), hread]
  simp only [BitVec.ofInt_natCast, BitVec.ofNat_toNat, BitVec.setWidth_eq]

theorem ofString_toText (id : LicenseId) : ofString id.toText = .ok id := by
  rw [ofString, toText, String.toList_ofList, read_chars]

end LicenseId

end LicenseDepot
