import LicenseDepot.Json.Reader
import LicenseDepot.Json.Writer
import LicenseDepot.Proofs.LicenseId.Canonical
import LicenseDepot.Proofs.Text.Character

/-!
# Texts are read back

Every character of a text is written in one of four ways (`Spelling`): as it is, as a letter after a
backslash, as a unit of sixteen bits, or as two of them. Main statements: the reader takes each of
these for the character, so it reads a written text back (`readText?_textTail`), and all that is
written lies between the space and the tilde (`isVisible_of_mem_writeText`).
-/

namespace LicenseDepot.Json

open Text Numeral

/-! ## Units of sixteen bits -/

theorem foldlM_hex (width n : Nat) :
    (hex width n).foldlM
      (fun n c => ((alphanumericValue? c).filter (· < 16)).map (n * 16 + ·)) 0
      = some (n % 16 ^ width) := by
  induction width generalizing n with
  | zero => simp [hex, Nat.mod_one]
  | succ width ih =>
    have hdigit : (alphanumericValue? (hexDigit (n % 16))).filter (· < 16) = some (n % 16) :=
      digitValue?_hexDigit (n % 16) (Nat.mod_lt _ (by decide))
    rw [hex, List.foldlM_append, ih]
    simp only [Option.bind_eq_bind, Option.bind_some, List.foldlM_cons, List.foldlM_nil, hdigit,
      Option.map_some, Nat.pow_succ', Nat.mod_mul]
    congr 1
    omega

theorem unit?_hex {n : Nat} (hn : n < 16 ^ 4) (s : List Char) :
    unit? (hex 4 n ++ s) = some (n, s) := by
  have hlength : (hex 4 n).length = 4 := length_hex 4 n
  rw [unit?, List.take_append_of_le_length hlength.ge, List.take_of_length_le hlength.le,
    if_pos hlength, foldlM_hex, Nat.mod_eq_of_lt hn, List.drop_left' hlength]
  rfl

/-- A unit that is half of no character stands for one. -/
theorem escaped?_hex {n : Nat} (hn : n < 0xD800 ∨ 0xDFFF < n ∧ n < 0x10000) (s : List Char) :
    escaped? (hex 4 n ++ s) = some (Char.ofNat n, s) := by
  rw [escaped?, unit?_hex (by omega), Option.bind_some]
  dsimp only
  rw [if_neg (by omega), if_neg (by omega)]

/-- Two units that belong together stand for one character. -/
theorem escaped?_pair {high low : Nat} (hhigh : 0xD800 ≤ high ∧ high < 0xDC00)
    (hlow : 0xDC00 ≤ low ∧ low < 0xE000) (s : List Char) :
    escaped? (hex 4 high ++ (escapeUnit low ++ s))
      = some (Char.ofNat (0x10000 + (high - 0xD800) * 0x400 + (low - 0xDC00)), s) := by
  have hmark : afterWord? "\\u" (escapeUnit low ++ s) = some (hex 4 low ++ s) := rfl
  rw [escaped?, unit?_hex (by omega), Option.bind_some]
  dsimp only
  rw [if_pos hhigh, hmark, Option.bind_some, unit?_hex (by omega), Option.bind_some]
  dsimp only
  rw [if_pos hlow]

/-! ## Characters -/

/-- Whether a character is one of ASCII that can be seen, or the space. -/
def IsVisible (c : Char) : Prop := 0x20 ≤ c.toNat ∧ c.toNat ≤ 0x7E

instance (c : Char) : Decidable (IsVisible c) :=
  inferInstanceAs (Decidable (0x20 ≤ c.toNat ∧ c.toNat ≤ 0x7E))

/-- The four ways in which a character is written. -/
inductive Spelling (c : Char) : List Char → Prop
  | letter (e : Char) (hletter : letterEscape? e = some c) (hunit : e ≠ 'u')
      (hvisible : IsVisible e) (hsmall : c.toNat < 0x80) : Spelling c ['\\', e]
  | plain (hquote : c ≠ '"') (hslash : c ≠ '\\') (hvisible : IsVisible c) : Spelling c [c]
  | unit (hsmall : c.toNat < 0x10000) : Spelling c (escapeUnit c.toNat)
  | pair (high low : Nat) (hhigh : 0xD800 ≤ high ∧ high < 0xDC00)
      (hlow : 0xDC00 ≤ low ∧ low < 0xE000)
      (hvalue : c.toNat = 0x10000 + (high - 0xD800) * 0x400 + (low - 0xDC00)) :
      Spelling c (escapeUnit high ++ escapeUnit low)

theorem spelling_writeChar (c : Char) : Spelling c (writeChar c) := by
  by_cases hletter : c ∈ ['"', '\\', '\n', '\r', '\t', '\x0c', '\x08']
  · simp only [List.mem_cons, List.not_mem_nil, or_false] at hletter
    obtain rfl | rfl | rfl | rfl | rfl | rfl | rfl := hletter
    all_goals exact .letter _ rfl (by decide) (by decide) (by decide)
  · simp only [List.mem_cons, List.not_mem_nil, or_false, not_or] at hletter
    obtain ⟨hquote, hslash, hn, hr, ht, hf, hb⟩ := hletter
    have hvalid := toNat_valid c
    rw [writeChar, if_neg hquote, if_neg hslash, if_neg hn, if_neg hr, if_neg ht, if_neg hf,
      if_neg hb]
    split
    · next hplain => exact .plain hquote hslash ⟨hplain.1, Nat.le_of_lt_succ hplain.2⟩
    · split
      · next hsmall => exact .unit hsmall
      · refine .pair _ _ ?_ ?_ ?_
        all_goals omega

section Character

variable {fuel : Nat} {done : List Char} {c e : Char} {s : List Char}

theorem readText?_plain (hquote : c ≠ '"') (hslash : c ≠ '\\') (hspace : 0x20 ≤ c.toNat) :
    readText? (fuel + 1) done (c :: s) = readText? fuel (c :: done) s := by
  rw [readText?.eq_def (fuel + 1)]
  dsimp only
  rw [if_neg hquote, if_neg (by omega), if_neg hslash]

theorem readText?_letter (he : e ≠ 'u') (h : letterEscape? e = some c) :
    readText? (fuel + 1) done ('\\' :: e :: s) = readText? fuel (c :: done) s := by
  rw [readText?, if_neg (by decide), if_neg (by decide), if_pos rfl, h, Option.bind_some]
  exact fun heq => absurd heq he

theorem readText?_escapeUnit {n : Nat} {rest : List Char}
    (h : escaped? (hex 4 n ++ s) = some (c, rest)) :
    readText? (fuel + 1) done (escapeUnit n ++ s) = readText? fuel (c :: done) rest := by
  rw [escapeUnit, List.cons_append, List.cons_append, readText?, if_neg (by decide),
    if_neg (by decide), if_pos rfl]
  dsimp only
  rw [h, Option.bind_some]

theorem readText?_quote :
    readText? (fuel + 1) done ('"' :: s) = some (String.ofList done.reverse, s) := by
  rw [readText?.eq_def]
  exact if_pos rfl

/-- Every spelling of a character is read as that character. -/
theorem Spelling.readText?_append {t : List Char} (h : Spelling c t) :
    readText? (fuel + 1) done (t ++ s) = readText? fuel (c :: done) s := by
  have hvalid := toNat_valid c
  cases h with
  | letter e hletter hunit => exact readText?_letter hunit hletter
  | plain hquote hslash hvisible => exact readText?_plain hquote hslash hvisible.1
  | unit hsmall =>
    apply readText?_escapeUnit
    rw [escaped?_hex (by omega), Char.ofNat_toNat]
  | pair high low hhigh hlow hvalue =>
    rw [List.append_assoc]
    apply readText?_escapeUnit
    rw [escaped?_pair hhigh hlow, ← hvalue, Char.ofNat_toNat]

/-- Characters are read back as they have been written, up to the quote that closes the text. -/
theorem readText?_flatMap_writeChar (t : List Char) (hfuel : t.length < fuel) :
    readText? fuel done (t.flatMap writeChar ++ '"' :: s)
      = some (String.ofList (done.reverse ++ t), s) := by
  induction t generalizing fuel done with
  | nil =>
    obtain ⟨fuel, rfl⟩ := Nat.exists_eq_add_one_of_ne_zero (Nat.ne_zero_of_lt hfuel)
    rw [List.flatMap_nil, List.nil_append, List.append_nil, readText?_quote]
  | cons c t ih =>
    obtain ⟨fuel, rfl⟩ := Nat.exists_eq_add_one_of_ne_zero (Nat.ne_zero_of_lt hfuel)
    rw [List.flatMap_cons, List.append_assoc, (spelling_writeChar c).readText?_append,
      ih (Nat.lt_of_succ_lt_succ hfuel), List.reverse_cons, List.append_assoc,
      List.singleton_append]

/-- A character past the sixteenth bit is written as the two units that stand for it. -/
theorem Spelling.exists_pair {t : List Char} (h : Spelling c t) (hc : 0x10000 ≤ c.toNat) :
    ∃ high low, (0xD800 ≤ high ∧ high < 0xDC00) ∧ (0xDC00 ≤ low ∧ low < 0xE000) ∧
      c.toNat = 0x10000 + (high - 0xD800) * 0x400 + (low - 0xDC00) ∧
      t = escapeUnit high ++ escapeUnit low := by
  cases h with
  | letter e hletter hunit hvisible hsmall => omega
  | plain hquote hslash hvisible =>
    have := hvisible.2
    omega
  | unit hsmall => omega
  | pair high low hhigh hlow hvalue => exact ⟨high, low, hhigh, hlow, hvalue, rfl⟩

theorem Spelling.length_pos {t : List Char} (h : Spelling c t) : 0 < t.length := by
  cases h <;> simp [escapeUnit]

end Character

/-! ## Texts -/

/-- What is left of a written text after its first quote. -/
def textTail (t : String) : List Char := t.toList.flatMap writeChar ++ ['"']

theorem writeText_eq (t : String) : writeText t = '"' :: textTail t := rfl

theorem length_lt_textTail (t : String) : t.toList.length < (textTail t).length := by
  have hle (s : List Char) : s.length ≤ (s.flatMap writeChar).length := by
    induction s with
    | nil => exact Nat.le_refl 0
    | cons c s ih =>
      have := (spelling_writeChar c).length_pos
      rw [List.flatMap_cons, List.length_append, List.length_cons]
      omega
  rw [textTail, List.length_append, List.length_singleton]
  exact Nat.lt_succ_of_le (hle _)

/-- A text is read back as it has been written. -/
theorem readText?_textTail (t : String) {fuel : Nat} (hfuel : (textTail t).length ≤ fuel)
    (s : List Char) : readText? fuel [] (textTail t ++ s) = some (t, s) := by
  rw [textTail, List.append_assoc, List.singleton_append,
    readText?_flatMap_writeChar _ ((length_lt_textTail t).trans_le hfuel), List.reverse_nil,
    List.nil_append, String.ofList_toList]

/-! ## What is written lies between the space and the tilde -/

theorem isVisible_of_mem_escapeUnit {n : Nat} : ∀ c ∈ escapeUnit n, IsVisible c := by
  have hdigit : ∀ k < 16, IsVisible (hexDigit k) := by decide
  intro c hc
  rw [escapeUnit, List.mem_cons, List.mem_cons] at hc
  rcases hc with rfl | rfl | hc
  · decide
  · decide
  · obtain ⟨k, hk, rfl⟩ := exists_of_mem_hex hc
    exact hdigit k hk

theorem Spelling.isVisible {c : Char} {t : List Char} (h : Spelling c t) :
    ∀ d ∈ t, IsVisible d := by
  cases h with
  | letter e hletter hunit hvisible =>
    rw [List.forall_mem_cons, List.forall_mem_singleton]
    exact ⟨by decide, hvisible⟩
  | plain hquote hslash hvisible =>
    rw [List.forall_mem_singleton]
    exact hvisible
  | unit hsmall => exact isVisible_of_mem_escapeUnit
  | pair high low =>
    rw [List.forall_mem_append]
    exact ⟨isVisible_of_mem_escapeUnit, isVisible_of_mem_escapeUnit⟩

theorem isVisible_of_mem_writeText {t : String} : ∀ c ∈ writeText t, IsVisible c := by
  intro c hc
  rw [writeText, List.cons_append, List.mem_cons, List.mem_append, List.mem_singleton,
    List.mem_flatMap] at hc
  rcases hc with rfl | ⟨d, -, hd⟩ | rfl
  · decide
  · exact (spelling_writeChar d).isVisible c hd
  · decide

end LicenseDepot.Json
