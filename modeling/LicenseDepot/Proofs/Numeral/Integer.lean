import LicenseDepot.Numeral.Integer
import Mathlib.Algebra.Ring.Nat
import Mathlib.Data.List.Basic
import Mathlib.Data.List.TakeWhile

/-!
# Reading back integer numerals

Of all the spellings that the reader of integers takes, the plain one is a run of digits of the
base, with a minus sign before it or not. On such a text none of the lenient rules has anything to
do but to pass over the blanks around it, so reading gives the value of the run, unless it is too
long (`read_run_of_blanks`, `read_neg_run_of_blanks`). Main statement: the decimal numeral of an
integer within the limit is read back as that integer, between blanks or not
(`read_digits_of_blanks`). And no other integer is read at all, whatever the spelling
(`isWritable_of_read`); one that is read without a minus sign is bounded by the length of the text
(`lt_of_read`).
-/

namespace LicenseDepot.Numeral.Integer

open Text

/-- Whether a character is a digit of a base. -/
abbrev IsDigit (base : Nat) (c : Char) : Prop :=
  (digitValue? base c).isSome = true

theorem alphanumeric_of_isDigit {base : Nat} {c : Char} (h : IsDigit base c) :
    (48 ≤ c.toNat ∧ c.toNat ≤ 57) ∨ (97 ≤ c.toNat ∧ c.toNat ≤ 122)
      ∨ (65 ≤ c.toNat ∧ c.toNat ≤ 90) := by
  obtain ⟨d, hd⟩ := Option.isSome_iff_exists.1 h
  have hsome := (Option.filter_eq_some_iff.1 hd).1
  unfold alphanumericValue? at hsome
  split at hsome
  · rename_i hc
    exact .inl ⟨hc.1, hc.2⟩
  split at hsome
  · rename_i hc
    exact .inr (.inl ⟨hc.1, hc.2⟩)
  split at hsome
  · rename_i hc
    exact .inr (.inr ⟨hc.1, hc.2⟩)
  · cases hsome

theorem ascii_of_isDigit {base : Nat} {c : Char} (h : IsDigit base c) : c.toNat < 0x80 := by
  have := alphanumeric_of_isDigit h
  omega

theorem ne_of_isDigit {base : Nat} {c d : Char} (h : IsDigit base c)
    (hd : d.toNat < 48 ∨ d.toNat = 95) : c ≠ d := by
  rintro rfl
  have := alphanumeric_of_isDigit h
  omega

theorem not_isAsciiBlank_of_isDigit {base : Nat} {c : Char} (h : IsDigit base c) :
    isAsciiBlank c = false := by
  have hc := alphanumeric_of_isDigit h
  have hspace : c ≠ ' ' := ne_of_isDigit h (.inl (by decide))
  simp only [isAsciiBlank, Bool.or_eq_false_iff, Bool.and_eq_false_iff, decide_eq_false_iff_not,
    beq_eq_false_iff_ne, ne_eq]
  exact ⟨by omega, hspace⟩

theorem toAscii_eq_self {s : List Char} (h : ∀ c ∈ s, c.toNat < 0x80) : toAscii s = s := by
  rw [toAscii, if_pos]
  simpa using h

theorem wellSeparated_of_forall_ne {opened : Bool} {s : List Char} (h : ∀ c ∈ s, c ≠ '_') :
    wellSeparated opened s = (opened || !s.isEmpty) := by
  induction s generalizing opened with
  | nil => simp [wellSeparated]
  | cons c s ih =>
    rw [wellSeparated, if_neg (h c List.mem_cons_self),
      ih fun d hd => h d (List.mem_cons_of_mem c hd)]
    simp

theorem ascii_of_isAsciiBlank {c : Char} (h : isAsciiBlank c = true) : c.toNat < 0x80 := by
  simp only [isAsciiBlank, Bool.or_eq_true, Bool.and_eq_true, decide_eq_true_eq, beq_iff_eq] at h
  rcases h with h | rfl
  · omega
  · decide

theorem not_isDigit_of_isAsciiBlank {base : Nat} {c : Char} (h : isAsciiBlank c = true) :
    ¬ IsDigit base c := by
  intro hdigit
  rw [not_isAsciiBlank_of_isDigit hdigit] at h
  cases h

/-! A run of digits between blanks. -/

section Run

variable {base : Nat} {text before s after : List Char}

/-- The mark of a base is no run of its digits. -/
theorem dropMark_eq_self (hbase : base ≤ 16) (hdigits : ∀ c ∈ s, IsDigit base c)
    (hafter : ∀ c ∈ after, isAsciiBlank c = true) : dropMark base (s ++ after) = s ++ after := by
  unfold dropMark
  split
  · rename_i x rest hx
    have hmem : x ∈ s ++ after := by
      rw [hx]
      simp
    rw [if_neg]
    rintro ⟨rfl, rfl | rfl⟩
    all_goals
      rcases List.mem_append.1 hmem with hmem | hmem
      · exact absurd (hdigits _ hmem) (by decide)
      · exact absurd (hafter _ hmem) (by decide)
  · rfl

/-- What is left to read once the sign has been taken off: a run of digits has its value, unless it
is too long, and blanks after it count for nothing. -/
theorem read_of_splitSign (hbase : base ≤ 16) {negative : Bool}
    (hsign : splitSign ((toAscii text).dropWhile isAsciiBlank) = (negative, s ++ after))
    (hne : s ≠ []) (hdigits : ∀ c ∈ s, IsDigit base c)
    (hafter : ∀ c ∈ after, isAsciiBlank c = true) :
    read base text =
      if isLimited base ∧ digitLimit < s.length then .error (.tooLong s.length)
      else .ok (if negative then -(valueOf base s : Int) else valueOf base s) := by
  have hpart : ∀ c ∈ s, ((digitValue? base c).isSome || c == '_') = true := by
    intro c hc
    rw [hdigits c hc, Bool.true_or]
  have hend : ∀ c ∈ after, ¬ ((digitValue? base c).isSome || c == '_') = true := by
    intro c hc
    have hbar : c ≠ '_' := by
      rintro rfl
      exact absurd (hafter _ hc) (by decide)
    simpa [hbar] using not_isDigit_of_isAsciiBlank (hafter c hc)
  obtain ⟨htake, hdrop⟩ : (s ++ after).takeWhile (fun c => (digitValue? base c).isSome || c == '_')
      = s ∧ (s ++ after).dropWhile (fun c => (digitValue? base c).isSome || c == '_') = after := by
    rw [List.takeWhile_append_of_pos hpart, List.dropWhile_append_of_pos hpart]
    cases after with
    | nil => simp
    | cons c after =>
      have hc := hend c List.mem_cons_self
      simp [hc]
  have hbar : ∀ c ∈ s, c ≠ '_' := fun c hc => ne_of_isDigit (hdigits c hc) (.inr rfl)
  have hfilter : s.filter (· != '_') = s := by
    rw [List.filter_eq_self]
    simpa using hbar
  have hsep : wellSeparated false s = true := by
    rw [wellSeparated_of_forall_ne hbar]
    simpa using hne
  unfold read
  rw [hsign]
  have hall : after.all isAsciiBlank = true := List.all_eq_true.2 hafter
  simp only [dropMark_eq_self hbase hdigits hafter, htake, hdrop, hfilter, hsep, hall]
  rfl

theorem splitSign_of_isDigit (h : ∀ c ∈ s, IsDigit base c) (hne : s ≠ []) :
    splitSign (s ++ after) = (false, s ++ after) := by
  obtain ⟨c, s, rfl⟩ := List.exists_cons_of_ne_nil hne
  have hc := h c List.mem_cons_self
  rw [List.cons_append]
  unfold splitSign
  split
  · rename_i heq
    exact absurd (List.cons.inj heq).1 (ne_of_isDigit hc (.inl (by decide)))
  · rename_i heq
    exact absurd (List.cons.inj heq).1 (ne_of_isDigit hc (.inl (by decide)))
  · rfl

/-- The leading blanks of an ASCII text are passed over. -/
theorem dropWhile_toAscii {c : Char} (hbefore : ∀ c ∈ before, isAsciiBlank c = true)
    (hs : ∀ d ∈ c :: s, d.toNat < 0x80) (hc : isAsciiBlank c = false)
    (hafter : ∀ c ∈ after, isAsciiBlank c = true) :
    (toAscii (before ++ (c :: s ++ after))).dropWhile isAsciiBlank = c :: s ++ after := by
  rw [toAscii_eq_self, List.dropWhile_append_of_pos hbefore, List.cons_append,
    List.dropWhile_cons_of_neg (by simp [hc])]
  intro d hd
  simp only [List.mem_append] at hd
  rcases hd with hd | hd | hd
  · exact ascii_of_isAsciiBlank (hbefore d hd)
  · exact hs d hd
  · exact ascii_of_isAsciiBlank (hafter d hd)

/-- A run of digits between blanks is read as its value, unless it is too long. -/
theorem read_run_of_blanks (hbase : base ≤ 16) (hne : s ≠ []) (hdigits : ∀ c ∈ s, IsDigit base c)
    (hbefore : ∀ c ∈ before, isAsciiBlank c = true)
    (hafter : ∀ c ∈ after, isAsciiBlank c = true) :
    read base (before ++ (s ++ after)) =
      if isLimited base ∧ digitLimit < s.length then .error (.tooLong s.length)
      else .ok (valueOf base s : Int) := by
  have hsign : splitSign ((toAscii (before ++ (s ++ after))).dropWhile isAsciiBlank)
      = (false, s ++ after) := by
    obtain ⟨c, s, rfl⟩ := List.exists_cons_of_ne_nil hne
    rw [dropWhile_toAscii hbefore (fun d hd => ascii_of_isDigit (hdigits d hd))
      (not_isAsciiBlank_of_isDigit (hdigits c List.mem_cons_self)) hafter,
      splitSign_of_isDigit hdigits hne]
  rw [read_of_splitSign hbase hsign hne hdigits hafter]
  rfl

/-- A run of digits after a minus sign and between blanks is read as the negative of its value,
unless it is too long. -/
theorem read_neg_run_of_blanks (hbase : base ≤ 16) (hne : s ≠ [])
    (hdigits : ∀ c ∈ s, IsDigit base c) (hbefore : ∀ c ∈ before, isAsciiBlank c = true)
    (hafter : ∀ c ∈ after, isAsciiBlank c = true) :
    read base (before ++ ('-' :: s ++ after)) =
      if isLimited base ∧ digitLimit < s.length then .error (.tooLong s.length)
      else .ok (-(valueOf base s : Int)) := by
  have hascii : ∀ d ∈ '-' :: s, d.toNat < 0x80 := by
    intro d hd
    rcases List.mem_cons.1 hd with rfl | hd
    · decide
    · exact ascii_of_isDigit (hdigits d hd)
  have hsign : splitSign ((toAscii (before ++ ('-' :: s ++ after))).dropWhile isAsciiBlank)
      = (true, s ++ after) := by
    rw [dropWhile_toAscii hbefore hascii (by decide) hafter]
    rfl
  rw [read_of_splitSign hbase hsign hne hdigits hafter]
  rfl

/-- A run of digits is read as its value. -/
theorem read_run (hbase : base ≤ 16) (hne : s ≠ []) (hdigits : ∀ c ∈ s, IsDigit base c)
    (hlimit : isLimited base = true → s.length ≤ digitLimit) :
    read base s = .ok (valueOf base s : Int) := by
  have hshort : ¬ (isLimited base = true ∧ digitLimit < s.length) :=
    fun h => absurd (hlimit h.1) (Nat.not_le_of_lt h.2)
  calc
    read base s = read base ([] ++ (s ++ [])) := by rw [List.nil_append, List.append_nil]
    _ = .ok (valueOf base s : Int) := by
      rw [read_run_of_blanks hbase hne hdigits (by simp) (by simp), if_neg hshort]

/-- A decimal run that is too long is turned away. -/
theorem read_long_run (hdigits : ∀ c ∈ s, IsDigit 10 c) (hlong : digitLimit < s.length) :
    read 10 s = .error (.tooLong s.length) := by
  have hne : s ≠ [] := List.length_pos_iff.1 (Nat.zero_lt_of_lt hlong)
  calc
    read 10 s = read 10 ([] ++ (s ++ [])) := by rw [List.nil_append, List.append_nil]
    _ = .error (.tooLong s.length) := by
      rw [read_run_of_blanks (by decide) hne hdigits (by simp) (by simp), if_pos ⟨rfl, hlong⟩]

end Run

theorem digitValue?_of_isDigit {c : Char} (h : c.isDigit = true) :
    digitValue? 10 c = some (c.toNat - 48) := by
  rw [Char.isDigit, Bool.and_eq_true, decide_eq_true_eq, decide_eq_true_eq] at h
  have h1 : 48 ≤ c.toNat := h.1
  have h2 : c.toNat ≤ 57 := h.2
  rw [digitValue?, alphanumericValue?, if_pos ⟨h.1, h.2⟩, Option.filter_some, if_pos]
  simp only [decide_eq_true_eq]
  omega

theorem valueOf_eq_ofDigitChars {s : List Char} (h : ∀ c ∈ s, c.isDigit = true) :
    valueOf 10 s = Nat.ofDigitChars 10 s 0 := by
  rw [valueOf, Nat.ofDigitChars_eq_foldl]
  apply List.foldl_ext
  intro n c hc
  rw [digitValue?_of_isDigit (h c hc), Option.getD_some, Nat.mul_comm]
  rfl

/-- The decimal numeral of an integer within the limit is read back as that integer, and so it is
between blanks. -/
theorem read_digits_of_blanks {n : Int} (h : isWritable n = true) {before after : List Char}
    (hbefore : ∀ c ∈ before, isAsciiBlank c = true)
    (hafter : ∀ c ∈ after, isAsciiBlank c = true) :
    read 10 (before ++ (digits n ++ after)) = .ok n := by
  have hdigit : ∀ c ∈ Nat.toDigits 10 n.natAbs, c.isDigit = true :=
    fun c hc => Nat.isDigit_of_mem_toDigits (by decide) (by decide) hc
  have hbase : ∀ c ∈ Nat.toDigits 10 n.natAbs, IsDigit 10 c := by
    intro c hc
    rw [IsDigit, digitValue?_of_isDigit (hdigit c hc)]
    rfl
  have hshort : ¬ (isLimited 10 = true ∧ digitLimit < (Nat.toDigits 10 n.natAbs).length) :=
    fun hlong => absurd (of_decide_eq_true h) (Nat.not_le_of_lt hlong.2)
  have hvalue : valueOf 10 (Nat.toDigits 10 n.natAbs) = n.natAbs := by
    rw [valueOf_eq_ofDigitChars hdigit, Nat.ofDigitChars_ten_toDigits]
  unfold digits
  by_cases hn : n < 0
  · rw [if_pos hn, read_neg_run_of_blanks (by decide) Nat.toDigits_ne_nil hbase hbefore hafter,
      if_neg hshort, hvalue]
    congr 1
    omega
  · rw [if_neg hn, read_run_of_blanks (by decide) Nat.toDigits_ne_nil hbase hbefore hafter,
      if_neg hshort, hvalue]
    congr 1
    omega

/-! Integers that have been read. -/

theorem getD_digitValue?_lt {base : Nat} (hbase : 0 < base) (c : Char) :
    (digitValue? base c).getD 0 < base := by
  cases hdigit : digitValue? base c with
  | none => exact hbase
  | some d => simpa using (Option.filter_eq_some_iff.1 hdigit).2

/-- A run of digits is worth less than the power of the base with as many digits. -/
theorem valueOf_lt {base : Nat} (hbase : 0 < base) (s : List Char) :
    valueOf base s < base ^ s.length := by
  have key : ∀ n, s.foldl (fun n c => n * base + (digitValue? base c).getD 0) n
      < (n + 1) * base ^ s.length := by
    induction s with
    | nil => simp
    | cons c s ih =>
      intro n
      have hdigit := getD_digitValue?_lt hbase c
      have hstep : n * base + (digitValue? base c).getD 0 + 1 ≤ (n + 1) * base := by
        rw [Nat.succ_mul]
        omega
      calc
        _ < (n * base + (digitValue? base c).getD 0 + 1) * base ^ s.length := ih _
        _ ≤ (n + 1) * base * base ^ s.length := Nat.mul_le_mul_right _ hstep
        _ = (n + 1) * base ^ (c :: s).length := by
          rw [Nat.mul_assoc, List.length_cons, Nat.pow_succ']
  simpa [valueOf] using key 0

/-- The value of a decimal run within the limit has a numeral within the limit. -/
theorem isWritable_valueOf {s : List Char} (h : s.length ≤ digitLimit) (negative : Bool) :
    isWritable (if negative then -(valueOf 10 s : Int) else valueOf 10 s) = true := by
  have habs : (if negative then -(valueOf 10 s : Int) else valueOf 10 s).natAbs = valueOf 10 s := by
    split
    · omega
    · omega
  have hvalue : valueOf 10 s < 10 ^ digitLimit :=
    Nat.lt_of_lt_of_le (valueOf_lt (by decide) s) (Nat.pow_le_pow_right (by decide) h)
  rw [isWritable, habs, decide_eq_true_eq]
  exact (Nat.length_toDigits_le_iff (by decide) (by decide)).2 hvalue

/-- An integer that has been read has a numeral within the limit. -/
theorem isWritable_of_read {text : List Char} {n : Int} (h : read 10 text = .ok n) :
    isWritable n = true := by
  unfold read at h
  simp only at h
  split at h
  · cases h
  split at h
  · cases h
  · rename_i hlimit
    split at h
    · cases h
    · cases h
      apply isWritable_valueOf
      by_contra hlong
      exact hlimit ⟨rfl, Nat.lt_of_not_le hlong⟩

/-! The range of what has been read. -/

/-- Bringing a text to ASCII makes no hyphens. -/
theorem eq_hyphen_of_asciiForm {c : Char} (h : asciiForm c = '-') : c = '-' := by
  have hdigit : ∀ d < 10, Char.ofNat (48 + d) ≠ '-' := by decide
  unfold asciiForm at h
  split at h
  · exact h
  split at h
  · cases h
  split at h
  · rename_i d hd
    exact absurd h (hdigit d (decimalValue?_lt hd))
  · exact h

theorem hyphen_notMem_toAscii {text : List Char} (h : '-' ∉ text) : '-' ∉ toAscii text := by
  unfold toAscii
  split
  · exact h
  · intro hmem
    obtain ⟨c, hc, hform⟩ := List.mem_map.1 hmem
    exact h (eq_hyphen_of_asciiForm hform ▸ hc)

theorem length_toAscii (text : List Char) : (toAscii text).length = text.length := by
  unfold toAscii
  split
  · rfl
  · exact List.length_map _

theorem splitSign_of_hyphen_notMem {s : List Char} (h : '-' ∉ s) :
    (splitSign s).1 = false ∧ (splitSign s).2.length ≤ s.length := by
  unfold splitSign
  split
  · exact absurd List.mem_cons_self h
  · exact ⟨rfl, by simp⟩
  · exact ⟨rfl, Nat.le_refl _⟩

theorem length_dropMark_le (base : Nat) (s : List Char) : (dropMark base s).length ≤ s.length := by
  unfold dropMark
  split
  · split
    · split
      · simp only [List.length_cons]
        omega
      · simp only [List.length_cons]
        omega
    · exact Nat.le_refl _
  · exact Nat.le_refl _

/-- An integer that has been read from a text without a minus sign is no negative one, and it is
less than the power of the base with as many digits as the text has characters. -/
theorem lt_of_read {base : Nat} (hbase : 0 < base) {text : List Char} {n : Int}
    (h : read base text = .ok n) (hminus : '-' ∉ text) :
    0 ≤ n ∧ n < (base ^ text.length : Nat) := by
  obtain ⟨hsign, hunsigned⟩ := splitSign_of_hyphen_notMem
    fun hmem => hyphen_notMem_toAscii hminus ((List.dropWhile_sublist isAsciiBlank).mem hmem)
  have hblank := (List.dropWhile_sublist isAsciiBlank (l := toAscii text)).length_le
  have hmark := length_dropMark_le base (splitSign ((toAscii text).dropWhile isAsciiBlank)).2
  have hlength := length_toAscii text
  unfold read at h
  simp only [hsign] at h
  generalize dropMark base _ = body at h hmark
  split at h
  · cases h
  split at h
  · cases h
  split at h
  · cases h
  · cases h
    have hdigits : ((body.takeWhile fun c => (digitValue? base c).isSome || c == '_').filter
        (· != '_')).length ≤ body.length :=
      (List.filter_sublist.trans (List.takeWhile_sublist _)).length_le
    generalize (body.takeWhile _).filter _ = digits at hdigits
    have hvalue := valueOf_lt hbase digits
    have hpower : base ^ digits.length ≤ base ^ text.length :=
      Nat.pow_le_pow_right hbase (by omega)
    simp only [Bool.false_eq_true, if_false]
    omega

end LicenseDepot.Numeral.Integer
