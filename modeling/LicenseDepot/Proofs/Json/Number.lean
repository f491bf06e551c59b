import LicenseDepot.Json.Reader
import LicenseDepot.Json.Writer
import LicenseDepot.Proofs.Numeral.Integer
import LicenseDepot.Proofs.Numeral.Shortest
import LicenseDepot.Proofs.Text.Character

/-!
# Numbers are read back

A number is written as the parts of a numeral: whole digits, and perhaps a fraction and a power of
ten. The reader takes the parts apart again (`readNumber?_chars`), and their value is that of the
shortest decimal, which rounds to the number. Main statement: `readNumber?_writeNumber`.
-/

namespace LicenseDepot.Json

open Numeral

/-! ## Runs of digits -/

/-- What comes after a run of digits begins with none. -/
def NoDigit (s : List Char) : Prop := ∀ c ∈ s.head?, c.isDigit = false

/-- What comes after a number does not extend it. -/
def EndsNumber (s : List Char) : Prop :=
  ∀ c ∈ s.head?, c.isDigit = false ∧ c ≠ '.' ∧ c ≠ 'e' ∧ c ≠ 'E'

theorem EndsNumber.noDigit {s : List Char} (h : EndsNumber s) : NoDigit s :=
  fun c hc => (h c hc).1

/-- Digits, at least one of them. -/
structure IsRun (s : List Char) : Prop where
  ne_nil : s ≠ []
  isDigit : ∀ c ∈ s, c.isDigit = true

section Run

variable {run rest : List Char}

theorem takeWhile_run (h : ∀ c ∈ run, c.isDigit = true) (hrest : NoDigit rest) :
    (run ++ rest).takeWhile Char.isDigit = run := by
  rw [List.takeWhile_append_of_pos h]
  cases rest with
  | nil => simp
  | cons c rest => simp [hrest c rfl]

theorem dropWhile_run (h : ∀ c ∈ run, c.isDigit = true) (hrest : NoDigit rest) :
    (run ++ rest).dropWhile Char.isDigit = rest := by
  rw [List.dropWhile_append_of_pos h]
  cases rest with
  | nil => simp
  | cons c rest => simp [hrest c rfl]

theorem IsRun.isEmpty (h : IsRun run) : run.isEmpty = false :=
  List.isEmpty_eq_false_iff.2 h.ne_nil

end Run

/-! ## The parts of a numeral -/

/-- A numeral without its sign. -/
structure Parts where
  whole : List Char
  /-- The digits of the fraction. -/
  fraction : Option (List Char)
  /-- The digits of the power of ten, and whether it is negative. -/
  exponent : Option (Bool × List Char)

namespace Parts

/-- The text of a fraction. -/
def fractionChars : Option (List Char) → List Char
  | none => []
  | some digits => '.' :: digits

/-- The text of a power of ten. -/
def exponentChars : Option (Bool × List Char) → List Char
  | none => []
  | some (negative, digits) => 'e' :: (if negative then '-' else '+') :: digits

/-- The text of a numeral. -/
def chars (p : Parts) : List Char :=
  p.whole ++ fractionChars p.fraction ++ exponentChars p.exponent

/-- The exponent of the power of ten. -/
def power : Option (Bool × List Char) → Int
  | none => 0
  | some (negative, digits) =>
    let n : Int := Nat.ofDigitChars 10 digits 0
    if negative then -n else n

/-- The decimal that a numeral spells. -/
def value (p : Parts) : ℚ :=
  Nat.ofDigitChars 10 (p.whole ++ p.fraction.getD []) 0
    * 10 ^ (power p.exponent - (p.fraction.getD []).length)

/-- The number that a numeral spells: an integer, unless it has a fraction or a power of ten. -/
def number? (negative : Bool) (p : Parts) : Option Number :=
  if p.fraction = none ∧ p.exponent = none then
    let n : Int := Nat.ofDigitChars 10 p.whole 0
    some (.integer (if negative then -n else n))
  else
    (decimalOf? negative p.whole (p.fraction.getD []) (power p.exponent)).map .decimal

/-- A numeral as JSON has it: there are digits everywhere, and no zero leads the others. -/
structure WellFormed (p : Parts) : Prop where
  whole : IsRun p.whole
  lead : p.whole.length = 1 ∨ p.whole.head? ≠ some '0'
  fraction : ∀ digits, p.fraction = some digits → IsRun digits
  exponent : ∀ negative digits, p.exponent = some (negative, digits) → IsRun digits

variable {p : Parts} {rest : List Char}

theorem readExponent?_exponentChars {exponent : Option (Bool × List Char)}
    (h : ∀ negative digits, exponent = some (negative, digits) → IsRun digits)
    (hrest : EndsNumber rest) :
    readExponent? (exponentChars exponent ++ rest)
      = some (exponent.map fun e => power (some e), rest) := by
  cases exponent with
  | none =>
    cases rest with
    | nil => rfl
    | cons c rest =>
      obtain ⟨-, -, he, hE⟩ := hrest c rfl
      simp [exponentChars, readExponent?, he, hE]
  | some e =>
    obtain ⟨negative, digits⟩ := e
    have hrun := h negative digits rfl
    cases negative <;>
      simp [exponentChars, readExponent?, takeWhile_run hrun.isDigit hrest.noDigit,
        dropWhile_run hrun.isDigit hrest.noDigit, hrun.ne_nil, power]

theorem readFraction?_fractionChars {fraction : Option (List Char)}
    (h : ∀ digits, fraction = some digits → IsRun digits) (hrest : NoDigit rest)
    (hdot : ∀ c ∈ rest.head?, c ≠ '.') :
    readFraction? (fractionChars fraction ++ rest) = some (fraction, rest) := by
  cases fraction with
  | none =>
    rw [fractionChars, List.nil_append]
    cases rest with
    | nil => rfl
    | cons c rest =>
      have := hdot c rfl
      unfold readFraction?
      split
      · next heq => exact absurd (List.cons.inj heq).1 this
      · rfl
  | some digits =>
    have hrun := h digits rfl
    simp [fractionChars, readFraction?, takeWhile_run hrun.isDigit hrest, hrun.isEmpty,
      dropWhile_run hrun.isDigit hrest]

theorem head_exponentChars (exponent : Option (Bool × List Char))
    (hrest : EndsNumber rest) :
    NoDigit (exponentChars exponent ++ rest) ∧
      ∀ c ∈ (exponentChars exponent ++ rest).head?, c ≠ '.' := by
  cases exponent with
  | none => exact ⟨hrest.noDigit, fun c hc => (hrest c hc).2.1⟩
  | some e => constructor <;> (rintro c ⟨⟩; decide)

theorem noDigit_fractionChars (fraction : Option (List Char)) (hrest : NoDigit rest) :
    NoDigit (fractionChars fraction ++ rest) := by
  cases fraction with
  | none => exact hrest
  | some digits =>
    rintro c ⟨⟩
    decide

/-- The reader takes the sign off a numeral. -/
theorem splitMinus_chars (h : IsRun p.whole) (negative : Bool) :
    splitMinus ((if negative then '-' :: p.chars else p.chars) ++ rest)
      = (negative, p.chars ++ rest) := by
  cases negative with
  | true => rfl
  | false =>
    obtain ⟨c, whole, hwhole⟩ := List.exists_cons_of_ne_nil h.ne_nil
    have hc : c ≠ '-' := by
      rintro rfl
      exact absurd (h.isDigit '-' (hwhole ▸ List.mem_cons_self)) (by decide)
    rw [if_neg Bool.false_ne_true, chars, hwhole]
    unfold splitMinus
    split
    · next heq => exact absurd (List.cons.inj heq).1 hc
    · rfl

/-- The reader takes a numeral apart again. -/
theorem readNumber?_chars (h : p.WellFormed) (hrest : EndsNumber rest) (negative : Bool) :
    readNumber? ((if negative then '-' :: p.chars else p.chars) ++ rest) =
      (p.number? negative).map fun x => (.number x, rest) := by
  obtain ⟨hdigit, hdot⟩ := head_exponentChars p.exponent hrest
  have hafter := noDigit_fractionChars p.fraction hdigit
  have hlead : (p.whole.isEmpty || (p.whole.length != 1 && p.whole.head? == some '0')) = false := by
    rw [h.whole.isEmpty]
    rcases h.lead with hlead | hlead <;> simp [hlead]
  have hchars : p.chars ++ rest
      = p.whole ++ (fractionChars p.fraction ++ (exponentChars p.exponent ++ rest)) := by
    rw [chars, List.append_assoc, List.append_assoc]
  unfold readNumber?
  rw [splitMinus_chars h.whole, hchars]
  simp only [takeWhile_run h.whole.isDigit hafter, hlead, Bool.false_eq_true, if_false,
    dropWhile_run h.whole.isDigit hafter, readFraction?_fractionChars h.fraction hdigit hdot,
    Option.bind_eq_bind, Option.bind_some, readExponent?_exponentChars h.exponent hrest]
  rw [number?]
  cases p.fraction <;> cases p.exponent <;> simp [power, integer, decimal, Function.comp_def]

end Parts

/-! ## Doubles -/

/-- A decimal that is nearest to a number is read as that number. -/
theorem decimalOf?_of_isNearest {x : Binary64} (hc : x.IsCanonical) (hpos : 0 < x.significand)
    {whole fraction : List Char} {exponent : Int}
    (h : x.IsNearest (Nat.ofDigitChars 10 (whole ++ fraction) 0
      * 10 ^ (exponent - fraction.length))) :
    decimalOf? x.negative whole fraction exponent = some x := by
  rw [decimalOf?]
  generalize Nat.ofDigitChars 10 (whole ++ fraction) 0 = n at h ⊢
  generalize exponent - fraction.length = e at h ⊢
  split
  · next hneg =>
    obtain ⟨k, rfl⟩ := Int.eq_negSucc_of_lt_zero hneg
    refine Binary64.ofRatio?_of_isNearest hc hpos (Nat.pow_pos (by decide)) ?_
    simpa [zpow_negSucc, div_eq_mul_inv] using h
  · next hpos' =>
    obtain ⟨k, rfl⟩ := Int.eq_ofNat_of_zero_le (not_lt.1 hpos')
    refine Binary64.ofRatio?_of_isNearest hc hpos Nat.one_pos ?_
    simpa using h

/-- The digits of a number as many as its width, with no zero in front. -/
theorem length_toDigits_eq {n width : Nat} (hwidth : 0 < width) (hlow : 10 ^ (width - 1) ≤ n)
    (hhigh : n < 10 ^ width) : (Nat.toDigits 10 n).length = width := by
  have hle := (Nat.length_toDigits_le_iff (b := 10) (by decide) hwidth).2 hhigh
  have hpos := Nat.length_toDigits_pos (b := 10) (n := n)
  by_contra hne
  have hshort := (Nat.length_toDigits_le_iff (n := n) (b := 10) (k := width - 1) (by decide)
    (by omega)).1 (by omega)
  omega

theorem head_toDigits_ne_zero {n : Nat} (hn : 0 < n) : (Nat.toDigits 10 n).head? ≠ some '0' := by
  intro hhead
  obtain ⟨rest, hrest⟩ := List.head?_eq_some_iff.1 hhead
  have hdigit : ∀ c ∈ rest, c.isDigit = true := by
    intro c hc
    exact Nat.isDigit_of_mem_toDigits (n := n) (b := 10) (by decide) (by decide)
      (hrest ▸ List.mem_cons_of_mem _ hc)
  have hvalue : n = Nat.ofDigitChars 10 rest 0 := by
    calc n = Nat.ofDigitChars 10 (Nat.toDigits 10 n) 0 := Nat.ofDigitChars_ten_toDigits.symm
      _ = Nat.ofDigitChars 10 rest 0 := by rw [hrest]; rfl
  have hlt : n < 10 ^ rest.length := by
    rw [← Integer.valueOf_eq_ofDigitChars hdigit] at hvalue
    exact hvalue ▸ Integer.valueOf_lt (by decide) rest
  have hlength : (Nat.toDigits 10 n).length = rest.length + 1 := by rw [hrest]; rfl
  rcases Nat.eq_zero_or_pos rest.length with hnil | hpos
  · rw [hnil] at hlt
    omega
  · have := (Nat.length_toDigits_le_iff (b := 10) (by decide) hpos).2 hlt
    omega

theorem isRun_toDigits (n : Nat) : IsRun (Nat.toDigits 10 n) :=
  ⟨Nat.toDigits_ne_nil, fun _ hc => Nat.isDigit_of_mem_toDigits (by decide) (by decide) hc⟩

/-- The parts of the numeral of a decimal. -/
def partsOf (layout : Binary64.Layout) (d : Decimal) : Parts :=
  let digits := Nat.toDigits 10 d.digits
  if d.point < layout.least ∨ layout.greatest < d.point then
    let e := d.point - 1
    let size := Nat.toDigits 10 e.natAbs
    ⟨digits.take 1, if digits.length = 1 then none else some (digits.drop 1),
      some (decide (e < 0), List.replicate (layout.exponentWidth - size.length) '0' ++ size)⟩
  else if d.point ≤ 0 then ⟨['0'], some (List.replicate d.point.natAbs '0' ++ digits), none⟩
  else if d.point.natAbs < digits.length then
    ⟨digits.take d.point.natAbs, some (digits.drop d.point.natAbs), none⟩
  else ⟨digits ++ List.replicate (d.point.natAbs - digits.length) '0', some ['0'], none⟩

section Decimal

variable {layout : Binary64.Layout} {d : Decimal}

theorem write_eq_chars : layout.write d = (partsOf layout d).chars := by
  rw [Binary64.Layout.write, partsOf]
  dsimp only
  split
  · by_cases h : (Nat.toDigits 10 d.digits).length = 1 <;> by_cases he : d.point - 1 < 0 <;>
      simp [Parts.chars, Parts.fractionChars, Parts.exponentChars, h, he]
  · split
    · simp [Parts.chars, Parts.fractionChars, Parts.exponentChars]
    · split <;> simp [Parts.chars, Parts.fractionChars, Parts.exponentChars]

theorem isDigit_of_mem_replicate {n : Nat} : ∀ c ∈ List.replicate n '0', c.isDigit = true := by
  intro c hc
  rw [List.eq_of_mem_replicate hc]
  decide

theorem IsRun.append {s t : List Char} (hs : IsRun s) (ht : ∀ c ∈ t, c.isDigit = true) :
    IsRun (s ++ t) :=
  ⟨by simp [hs.ne_nil], fun c hc => (List.mem_append.1 hc).elim (hs.isDigit c) (ht c)⟩

theorem IsRun.pad {s : List Char} (hs : IsRun s) (n : Nat) : IsRun (List.replicate n '0' ++ s) :=
  ⟨by simp [hs.ne_nil], fun c hc =>
    (List.mem_append.1 hc).elim (isDigit_of_mem_replicate c) (hs.isDigit c)⟩

theorem IsRun.take {s : List Char} (hs : IsRun s) {n : Nat} (hn : 0 < n) : IsRun (s.take n) :=
  ⟨by simp [hs.ne_nil, hn.ne'], fun c hc => hs.isDigit c (List.mem_of_mem_take hc)⟩

theorem IsRun.drop {s : List Char} (hs : IsRun s) {n : Nat} (hn : n < s.length) :
    IsRun (s.drop n) :=
  ⟨by simpa using hn, fun c hc => hs.isDigit c (List.mem_of_mem_drop hc)⟩

theorem isRun_zero : IsRun ['0'] := ⟨by decide, Text.forall_mem_of_all (by decide)⟩

theorem wellFormed_partsOf (hpos : 0 < d.digits) : (partsOf layout d).WellFormed := by
  have hrun := isRun_toDigits d.digits
  have hhead := head_toDigits_ne_zero hpos
  have hlength : 0 < (Nat.toDigits 10 d.digits).length := Nat.length_toDigits_pos
  rw [partsOf]
  dsimp only
  split
  · refine ⟨hrun.take Nat.one_pos, .inl ?_, ?_, ?_⟩
    · rw [List.length_take]
      omega
    · intro digits heq
      by_cases hone : (Nat.toDigits 10 d.digits).length = 1
      · rw [if_pos hone] at heq
        cases heq
      · rw [if_neg hone] at heq
        cases heq
        exact hrun.drop (by omega)
    · rintro negative digits ⟨⟩
      exact (isRun_toDigits _).pad _
  · split
    · refine ⟨isRun_zero, .inl rfl, ?_, ?_⟩
      · rintro digits ⟨⟩
        exact hrun.pad _
      · rintro negative digits ⟨⟩
    · next hpoint =>
      have hplace : 0 < d.point.natAbs := by omega
      split
      · next hinside =>
        refine ⟨hrun.take hplace, .inr ?_, ?_, ?_⟩
        · rwa [List.head?_take, if_neg hplace.ne']
        · rintro digits ⟨⟩
          exact hrun.drop hinside
        · rintro negative digits ⟨⟩
      · refine ⟨hrun.append isDigit_of_mem_replicate, .inr ?_, ?_, ?_⟩
        · rwa [List.head?_append_of_ne_nil _ hrun.ne_nil]
        · rintro digits ⟨⟩
          exact isRun_zero
        · rintro negative digits ⟨⟩

theorem ofDigitChars_pad (n : Nat) (s : List Char) :
    Nat.ofDigitChars 10 (List.replicate n '0' ++ s) 0 = Nat.ofDigitChars 10 s 0 := by
  rw [Nat.ofDigitChars_append, Nat.ofDigitChars_replicate_zero, Nat.mul_zero]

theorem power_eq (e : Int) (n : Nat) :
    Parts.power (some (decide (e < 0), List.replicate n '0' ++ Nat.toDigits 10 e.natAbs)) = e := by
  rw [Parts.power, ofDigitChars_pad, Nat.ofDigitChars_ten_toDigits]
  simp only [decide_eq_true_eq]
  omega

/-- A point moves by as many places as there are digits behind it. -/
theorem value_of_digits {p : Parts} {n : Nat} {e : Int}
    (hdigits : Nat.ofDigitChars 10 (p.whole ++ p.fraction.getD []) 0 = n)
    (hpower : Parts.power p.exponent - (p.fraction.getD []).length = e) :
    p.value = n * 10 ^ e := by
  rw [Parts.value, hdigits, hpower]

theorem value_partsOf (hwidth : (Nat.toDigits 10 d.digits).length = d.width) :
    (partsOf layout d).value = d.digits * 10 ^ (d.point - d.width) := by
  have hdigits : Nat.ofDigitChars 10 (Nat.toDigits 10 d.digits) 0 = d.digits :=
    Nat.ofDigitChars_ten_toDigits
  have hlength : 0 < (Nat.toDigits 10 d.digits).length := Nat.length_toDigits_pos
  rw [partsOf]
  dsimp only
  split
  · have hfraction : (if (Nat.toDigits 10 d.digits).length = 1 then none
        else some ((Nat.toDigits 10 d.digits).drop 1)).getD []
          = (Nat.toDigits 10 d.digits).drop 1 := by
      split
      · next hone => exact (List.drop_eq_nil_of_le hone.le).symm
      · rfl
    refine value_of_digits ?_ ?_
    · rw [hfraction, List.take_append_drop, hdigits]
    · rw [hfraction, power_eq, List.length_drop]
      omega
  · split
    · next hpoint =>
      refine value_of_digits ?_ ?_
      · rw [Option.getD_some, ← List.append_assoc, List.singleton_append, ← List.replicate_succ,
          ofDigitChars_pad, hdigits]
      · rw [Option.getD_some, List.length_append, List.length_replicate, Parts.power]
        omega
    · next hpoint =>
      split
      · refine value_of_digits ?_ ?_
        · rw [Option.getD_some, List.take_append_drop, hdigits]
        · rw [Option.getD_some, List.length_drop, Parts.power]
          omega
      · next hplace =>
        have hpad : d.point - d.width
            = (d.point.natAbs - (Nat.toDigits 10 d.digits).length : Nat) := by omega
        rw [hpad, zpow_natCast]
        generalize d.point.natAbs - (Nat.toDigits 10 d.digits).length = k
        have hvalue :
            Nat.ofDigitChars 10 (Nat.toDigits 10 d.digits ++ List.replicate k '0' ++ ['0']) 0
              = 10 ^ (k + 1) * d.digits := by
          rw [List.append_assoc, ← List.replicate_succ', Nat.ofDigitChars_append, hdigits,
            Nat.ofDigitChars_replicate_zero]
        rw [Parts.value, Option.getD_some, hvalue, Parts.power]
        push_cast
        rw [pow_succ]
        norm_num
        ring

end Decimal

theorem decimal_partsOf (layout : Binary64.Layout) (d : Decimal) :
    ¬ ((partsOf layout d).fraction = none ∧ (partsOf layout d).exponent = none) := by
  unfold partsOf
  grind

/-! ## Numbers -/

/-- How a number is written: as a numeral, perhaps after a minus sign, that spells the number. -/
structure IsNumeral (x : Number) (negative : Bool) (p : Parts) : Prop where
  wellFormed : p.WellFormed
  chars_eq : writeNumber x = if negative then '-' :: p.chars else p.chars
  number_eq : p.number? negative = some x

/-- Whether all doubles among some numbers are as the format stores them. -/
def AllCanonical (xs : List Number) : Prop := ∀ x, .decimal x ∈ xs → x.IsCanonical

theorem isNumeral_integer (n : Int) :
    IsNumeral (.integer n) (decide (n < 0)) ⟨Nat.toDigits 10 n.natAbs, none, none⟩ := by
  refine ⟨⟨isRun_toDigits _, ?_, ?_, ?_⟩, ?_, ?_⟩
  · rcases Nat.eq_zero_or_pos n.natAbs with hzero | hpos
    · left
      rw [hzero]
      rfl
    · exact .inr (head_toDigits_ne_zero hpos)
  · rintro digits ⟨⟩
  · rintro negative digits ⟨⟩
  · rw [writeNumber, Integer.digits]
    simp [Parts.chars, Parts.fractionChars, Parts.exponentChars]
  · rw [Parts.number?, if_pos ⟨rfl, rfl⟩, Nat.ofDigitChars_ten_toDigits]
    simp only [decide_eq_true_eq]
    congr 2
    omega

theorem eq_zero_of_significand {x : Binary64} (hc : x.IsCanonical) (h : x.significand = 0) :
    x = .zero x.negative := by
  have hexponent : x.exponent = Binary64.minExponent := by
    refine hc.full.resolve_left ?_
    omega
  cases x
  cases h
  cases hexponent
  rfl

/-- Zero has one digit on both sides of the point. -/
theorem isNumeral_zero (negative : Bool) :
    IsNumeral (.decimal (.zero negative)) negative ⟨['0'], some ['0'], none⟩ := by
  refine ⟨⟨isRun_zero, .inl rfl, ?_, ?_⟩, ?_, ?_⟩
  · rintro digits ⟨⟩
    exact isRun_zero
  · rintro negative digits ⟨⟩
  · cases negative <;> rfl
  · cases negative <;> rfl

theorem isNumeral_decimal {x : Binary64} (hc : x.IsCanonical) (hpos : 0 < x.significand) :
    IsNumeral (.decimal x) x.negative (partsOf Binary64.plainLayout x.shortest) := by
  obtain ⟨hnear, hwidth, hlow, hhigh⟩ := Binary64.shows_shortest hc hpos
  have hdecimal := decimal_partsOf Binary64.plainLayout x.shortest
  refine ⟨wellFormed_partsOf (Nat.lt_of_lt_of_le (Nat.pow_pos (by decide)) hlow), ?_, ?_⟩
  · rw [writeNumber, Binary64.chars, if_neg hpos.ne', write_eq_chars]
  · rw [← value_partsOf (length_toDigits_eq hwidth hlow hhigh)] at hnear
    rw [Parts.number?, if_neg hdecimal, decimalOf?_of_isNearest hc hpos hnear, Option.map_some]

/-- Every number is written as a numeral. -/
theorem exists_isNumeral {x : Number} (h : AllCanonical [x]) :
    ∃ negative p, IsNumeral x negative p := by
  cases x with
  | integer n => exact ⟨_, _, isNumeral_integer n⟩
  | decimal x =>
    have hc := h x (List.mem_singleton.2 rfl)
    rcases Nat.eq_zero_or_pos x.significand with hzero | hpos
    · rw [eq_zero_of_significand hc hzero]
      exact ⟨_, _, isNumeral_zero _⟩
    · exact ⟨_, _, isNumeral_decimal hc hpos⟩

/-- A number is read back as it has been written. -/
theorem readNumber?_writeNumber {x : Number} {rest : List Char} (h : AllCanonical [x])
    (hrest : EndsNumber rest) : readNumber? (writeNumber x ++ rest) = some (.number x, rest) := by
  obtain ⟨negative, p, hx⟩ := exists_isNumeral h
  rw [hx.chars_eq, Parts.readNumber?_chars hx.wellFormed hrest, hx.number_eq, Option.map_some]

/-- A numeral begins with a digit or a minus sign. -/
theorem exists_writeNumber_eq_cons {x : Number} (h : AllCanonical [x]) :
    ∃ c s, writeNumber x = c :: s ∧ (c.isDigit = true ∨ c = '-') := by
  obtain ⟨negative, p, hx⟩ := exists_isNumeral h
  obtain ⟨c, s, hs⟩ := List.exists_cons_of_ne_nil hx.wellFormed.whole.ne_nil
  rw [hx.chars_eq]
  cases negative with
  | true => exact ⟨'-', _, rfl, .inr rfl⟩
  | false =>
    refine ⟨c, s ++ Parts.fractionChars p.fraction ++ Parts.exponentChars p.exponent, ?_,
      .inl (hx.wellFormed.whole.isDigit c (hs ▸ List.mem_cons_self))⟩
    rw [if_neg Bool.false_ne_true, Parts.chars, hs]
    rfl

end LicenseDepot.Json
