import LicenseDepot.Failure
import LicenseDepot.Proofs.LicenseId.FileName
import LicenseDepot.Proofs.Numeral.Hexadecimal

/-!
# Spellings of identifiers

An identifier is read from its digits in either case with hyphens among them, with braces and the
mark `urn:uuid:` around them, between blanks: what the reader takes off is what such a spelling
puts on, in the opposite order (`bare_around`). Whatever else it reads, the word that it takes is
the number that the text is a numeral of, and the canonical text of the identifier is read back.
Main statement: `ofString_normalises`.
-/

namespace LicenseDepot

open Text Numeral

namespace LicenseId

/-- What may stand around the digits of an identifier: blanks at both ends, opening braces with the
mark of an identifier before, among or after them, and closing braces. -/
structure Decoration where
  before : List Char
  outer : Nat
  marked : Bool
  inner : Nat
  closing : Nat
  after : List Char
  blank_before : ∀ c ∈ before, isBlank c = true
  blank_after : ∀ c ∈ after, isBlank c = true

/-- The mark that may stand before an identifier. -/
def mark : List Char :=
  "urn:uuid:".toList

namespace Decoration

/-- The braces and the mark that open an identifier. -/
def front (d : Decoration) : List Char :=
  List.replicate d.outer '\x7b' ++ (if d.marked then mark else []) ++ List.replicate d.inner '\x7b'

theorem not_blank_of_mem_front {d : Decoration} {c : Char} (h : c ∈ d.front) :
    isBlank c = false := by
  have hmark : ∀ c ∈ mark, isBlank c = false := forall_mem_of_all (by decide)
  have hbrace : isBlank '\x7b' = false := by decide
  simp only [front, List.mem_append] at h
  rcases h with (h | h) | h
  · rw [List.eq_of_mem_replicate h, hbrace]
  · split at h
    · exact hmark c h
    · cases h
  · rw [List.eq_of_mem_replicate h, hbrace]

/-- A text with a decoration around it. -/
def around (d : Decoration) (body : List Char) : List Char :=
  d.before ++ (d.front ++ body ++ List.replicate d.closing '\x7d') ++ d.after

end Decoration

/-- Whether a text is the digits of an identifier, each letter in either case, with hyphens put
anywhere among them. -/
def IsDigitsOf (id : LicenseId) (body : List Char) : Prop :=
  (body.filter (· != '-')).map Char.toLower = hex 32 id.value.toNat

instance (id : LicenseId) (body : List Char) : Decidable (IsDigitsOf id body) :=
  inferInstanceAs (Decidable (_ = _))

/-! What the reader takes off. -/

/-- Characters of a class around a text that has none of them are cut. -/
theorem dropWhile_both_append {p : Char → Bool} {before s after : List Char}
    (hbefore : ∀ c ∈ before, p c = true) (hs : ∀ c ∈ s, p c = false)
    (hafter : ∀ c ∈ after, p c = true) :
    (((before ++ s ++ after).dropWhile p).reverse.dropWhile p).reverse = s := by
  have hrun : ∀ c ∈ after.reverse, p c = true := fun c hc => hafter c (List.mem_reverse.1 hc)
  rw [List.append_assoc, List.dropWhile_append_of_pos hbefore]
  cases s with
  | nil => simp [List.dropWhile_eq_nil_iff.2 hafter]
  | cons c s =>
    have hc : ¬ p c = true := by simp [hs c List.mem_cons_self]
    have hkept := dropWhile_both_eq_self hs
    rw [List.dropWhile_cons_of_neg hc] at hkept
    rw [List.cons_append, List.dropWhile_cons_of_neg hc, ← List.cons_append, List.reverse_append,
      List.dropWhile_append_of_pos hrun, hkept]

/-- A word is taken out where it stands, and what comes before and has not its first character
stays. -/
theorem without_append {word s : List Char} {c : Char} (hword : word.head? = some c) (h : c ∉ s)
    (t : List Char) : without word (s ++ (word ++ t)) = s ++ without word t := by
  obtain ⟨rest, rfl⟩ := List.head?_eq_some_iff.1 hword
  induction s with
  | nil =>
    have hpre : (c :: rest).isPrefixOf (c :: (rest ++ t)) = true :=
      List.isPrefixOf_iff_prefix.2 (List.prefix_append (c :: rest) t)
    rw [List.nil_append, List.nil_append, List.cons_append, without,
      if_pos ⟨hpre, List.cons_ne_nil _ _⟩, ← List.cons_append, List.drop_left]
  | cons d s ih =>
    have hno : ¬ ((c :: rest).isPrefixOf (d :: (s ++ (c :: rest ++ t))) = true ∧
        c :: rest ≠ []) := by
      rintro ⟨hpre, -⟩
      obtain ⟨rfl, -⟩ := List.cons_prefix_cons.1 (List.isPrefixOf_iff_prefix.1 hpre)
      exact h List.mem_cons_self
    rw [List.cons_append, without, if_neg hno, ih fun hs => h (List.mem_cons_of_mem d hs)]
    rfl

/-- The mark of an identifier is taken out of a text that has none of its letters elsewhere. -/
theorem without_mark {front rest : List Char} (hfront : 'u' ∉ front) (hu : 'u' ∉ rest)
    (hr : 'r' ∉ rest) (marked : Bool) :
    without "uuid:".toList (without "urn:".toList
      (front ++ ((if marked then mark else []) ++ rest))) = front ++ rest := by
  cases marked with
  | false =>
    have hwhole : 'u' ∉ front ++ ([] ++ rest) := by
      rw [List.nil_append, List.mem_append, not_or]
      exact ⟨hfront, hu⟩
    rw [if_neg Bool.false_ne_true, without_eq_self ⟨'u', by decide, hwhole⟩,
      without_eq_self ⟨'u', by decide, hwhole⟩, List.nil_append]
  | true =>
    have hword : 'r' ∉ "uuid:".toList ++ rest := by
      rw [List.mem_append, not_or]
      exact ⟨by decide, hr⟩
    have hurn : without "urn:".toList (front ++ ("urn:".toList ++ ("uuid:".toList ++ rest)))
        = front ++ ("uuid:".toList ++ rest) := by
      rw [without_append rfl hfront, without_eq_self ⟨'r', by decide, hword⟩]
    rw [if_pos rfl, show mark = "urn:".toList ++ "uuid:".toList by decide, List.append_assoc, hurn,
      without_append rfl hfront, without_eq_self ⟨'u', by decide, hu⟩]

/-- A letter or digit of a spelling is a lower-case digit or the capital of one. -/
theorem eq_or_eq_toUpper {c d : Char} (h : c.toLower = d) : c = d ∨ c = d.toUpper := by
  have hnat := congrArg Char.toNat h
  rw [toNat_toLower] at hnat
  rcases Classical.em (65 ≤ c.toNat ∧ c.toNat ≤ 90) with hcapital | hcapital
  · rw [if_pos hcapital] at hnat
    refine .inr (Char.toNat_inj.1 ?_)
    rw [toNat_toUpper, if_pos (by omega)]
    omega
  · rw [if_neg hcapital] at hnat
    exact .inl (Char.toNat_inj.1 hnat)

/-- Whether a character may stand among the digits of an identifier. -/
def IsBodyChar (c : Char) : Prop :=
  c = '-' ∨ ∃ k < 16, c.toLower = hexDigit k

theorem isBodyChar_of_mem {id : LicenseId} {body : List Char} (h : IsDigitsOf id body) :
    ∀ c ∈ body, IsBodyChar c := by
  intro c hc
  by_cases hhyphen : c = '-'
  · exact .inl hhyphen
  · have hmem : c.toLower ∈ hex 32 id.value.toNat := by
      rw [← h]
      exact List.mem_map_of_mem (List.mem_filter.2 ⟨hc, by simpa using hhyphen⟩)
    exact .inr (exists_of_mem_hex hmem)

/-- The reader takes nothing off that may stand among the digits but hyphens. -/
theorem IsBodyChar.plain {c : Char} (h : IsBodyChar c) :
    isBlank c = false ∧ isBrace c = false ∧ c ≠ 'u' ∧ c ≠ 'r' := by
  have hsmall : ∀ k < 16, isBlank (hexDigit k) = false ∧ isBrace (hexDigit k) = false ∧
      hexDigit k ≠ 'u' ∧ hexDigit k ≠ 'r' := by decide
  have hcapital : ∀ k < 16, isBlank (hexDigit k).toUpper = false ∧
      isBrace (hexDigit k).toUpper = false ∧ (hexDigit k).toUpper ≠ 'u' ∧
      (hexDigit k).toUpper ≠ 'r' := by decide
  rcases h with rfl | ⟨k, hk, hlower⟩
  · decide
  · rcases eq_or_eq_toUpper hlower with rfl | rfl
    · exact hsmall k hk
    · exact hcapital k hk

section Around

variable (d : Decoration) {body : List Char}

theorem notMem_replicate_of_isBrace {c brace : Char} (hc : isBrace c = false)
    (hbrace : isBrace brace = true) (n : Nat) : c ∉ List.replicate n brace := by
  intro hmem
  rw [List.eq_of_mem_replicate hmem, hbrace] at hc
  cases hc

/-- What is left of a decorated text is its digits. -/
theorem bare_around (h : ∀ c ∈ body, IsBodyChar c) :
    bare (d.around body) = body.filter (· != '-') := by
  have htrim : trim (d.around body) = d.front ++ body ++ List.replicate d.closing '\x7d' := by
    refine dropWhile_both_append d.blank_before (fun c hc => ?_) d.blank_after
    rcases List.mem_append.1 hc with hc | hc
    · rcases List.mem_append.1 hc with hc | hc
      · exact d.not_blank_of_mem_front hc
      · exact (h c hc).plain.1
    · rw [List.eq_of_mem_replicate hc]
      decide
  have hparts : d.front ++ body ++ List.replicate d.closing '\x7d'
      = List.replicate d.outer '\x7b' ++ ((if d.marked then mark else [])
        ++ (List.replicate d.inner '\x7b' ++ body ++ List.replicate d.closing '\x7d')) := by
    simp only [Decoration.front, List.append_assoc]
  -- Neither braces nor digits are letters of the mark.
  have hrest : ∀ c, isBrace c = false → c ∉ body →
      c ∉ List.replicate d.inner '\x7b' ++ body ++ List.replicate d.closing '\x7d' := by
    intro c hc hbody
    rw [List.mem_append, List.mem_append, not_or, not_or]
    exact ⟨⟨notMem_replicate_of_isBrace hc rfl _, hbody⟩, notMem_replicate_of_isBrace hc rfl _⟩
  have hunbraced : unbraced (List.replicate d.outer '\x7b'
      ++ (List.replicate d.inner '\x7b' ++ body ++ List.replicate d.closing '\x7d')) = body := by
    rw [← List.append_assoc, ← List.append_assoc]
    refine dropWhile_both_append (fun c hc => ?_) (fun c hc => (h c hc).plain.2.1) fun c hc => ?_
    · rcases List.mem_append.1 hc with hc | hc
      · rw [List.eq_of_mem_replicate hc]
        rfl
      · rw [List.eq_of_mem_replicate hc]
        rfl
    · rw [List.eq_of_mem_replicate hc]
      rfl
  rw [bare, htrim, hparts, without_mark (notMem_replicate_of_isBrace (by decide) rfl _)
    (hrest 'u' (by decide) fun hmem => (h _ hmem).plain.2.2.1 rfl)
    (hrest 'r' (by decide) fun hmem => (h _ hmem).plain.2.2.2 rfl), hunbraced]

/-- An identifier is read from its digits, whatever the spelling. -/
theorem read_around {id : LicenseId} (h : IsDigitsOf id body) : read (d.around body) = .ok id := by
  have hlength : (body.filter (· != '-')).length = 32 := by
    rw [← List.length_map Char.toLower, h, length_hex]
  have hdigit : ∀ c ∈ body.filter (· != '-'), Integer.IsDigit 16 c := by
    intro c hc
    have hmem : c.toLower ∈ hex 32 id.value.toNat := by
      rw [← h]
      exact List.mem_map_of_mem hc
    rw [Integer.IsDigit, ← Integer.digitValue?_toLower]
    exact isDigit_of_mem_hex hmem
  have hvalue : Integer.valueOf 16 (body.filter (· != '-')) = id.value.toNat := by
    rw [← Integer.valueOf_map_toLower, h, valueOf_hex]
    exact Nat.mod_eq_of_lt id.value.isLt
  have hne : body.filter (· != '-') ≠ [] := List.ne_nil_of_length_eq_add_one hlength
  rw [read, bare_around d (isBodyChar_of_mem h), if_pos hlength,
    Integer.read_run (by decide) hne hdigit (fun hlimit => absurd hlimit (by decide)), hvalue]
  simp only [BitVec.ofInt_natCast, BitVec.ofNat_toNat, BitVec.setWidth_eq]

end Around

/-- The word of an identifier is the number that its text is a numeral of, which needs no more bits
than the word has. -/
theorem exists_of_read_eq_ok {s : List Char} {id : LicenseId} (h : read s = .ok id) :
    ∃ n : Nat, n < 2 ^ 128 ∧ Integer.read 16 (bare s) = .ok (n : Int) ∧ id.value.toNat = n := by
  have hhyphen : '-' ∉ bare s := fun hmem => by simpa using (List.mem_filter.1 hmem).2
  rw [read] at h
  split at h
  · rename_i hlength
    split at h
    · rename_i n hn
      obtain ⟨hpos, hlt⟩ := Integer.lt_of_read (by decide) hn hhyphen
      rw [hlength] at hlt
      obtain ⟨n, rfl⟩ := Int.eq_ofNat_of_zero_le hpos
      cases h
      have hbound : n < 2 ^ 128 := by exact_mod_cast hlt
      refine ⟨n, hbound, hn, ?_⟩
      rw [BitVec.ofInt_natCast, BitVec.toNat_ofNat, Nat.mod_eq_of_lt hbound]
    · cases h
  · cases h

theorem toList_toText (id : LicenseId) : id.toText.toList = hyphenated (hex 32 id.value.toNat) :=
  String.toList_ofList

/-- Every spelling of an identifier is read as that identifier. Any text at all is either turned
away, or it is read as the identifier whose word is the number that it spells, and the canonical
text of this identifier, in small letters and with hyphens, is read as the same one. -/
theorem ofString_normalises :
    (∀ (id : LicenseId) (body : List Char), IsDigitsOf id body → ∀ d : Decoration,
      ofString (String.ofList (d.around body)) = .ok id) ∧
    ∀ text : String,
      (∃ fault, ofString text = .error fault ∧
        (Failure.notAnId fault).typeName = "ValueError") ∨
      ∃ (id : LicenseId) (n : Nat), ofString text = .ok id ∧
        Integer.read 16 (bare text.toList) = .ok (n : Int) ∧ n < 2 ^ 128 ∧ id.value.toNat = n ∧
        id.toText.toList = hyphenated (hex 32 n) ∧ id.toText.length = 36 ∧
        (∀ c ∈ id.toText.toList, c = '-' ∨ isLowerHex c = true) ∧
        ofString id.toText = .ok id := by
  refine ⟨fun id body h d => ?_, fun text => ?_⟩
  · rw [ofString, String.toList_ofList, read_around d h]
  · cases hread : ofString text with
    | error fault => exact .inl ⟨fault, rfl, rfl⟩
    | ok id =>
      obtain ⟨n, hlt, hn, rfl⟩ := exists_of_read_eq_ok hread
      refine .inr ⟨id, _, rfl, hn, hlt, rfl, toList_toText id, ?_, fun c hc => ?_,
        ofString_toText id⟩
      · rw [← String.length_toList, toText, String.toList_ofList, length_chars]
      · rw [toText, String.toList_ofList] at hc
        refine (mem_chars hc).imp_right ?_
        rintro ⟨k, hk, rfl⟩
        exact isLowerHex_hexDigit k hk

/-- A decoration with the mark of an identifier among braces. -/
def ornate : Decoration :=
  ⟨[' ', '\t'], 1, true, 2, 3, ['\n'], forall_mem_of_all (by decide),
    forall_mem_of_all (by decide)⟩

theorem ofString_normalises_ornate :
    IsDigitsOf ⟨0x0123456789abcdeffedcba9876543210⟩
      "-01234567-89AB-cdEF-fedc--BA9876543210".toList ∧
    ofString " \t\x7burn:uuid:\x7b\x7b-01234567-89AB-cdEF-fedc--BA9876543210\x7d\x7d\x7d\n"
      = .ok ⟨0x0123456789abcdeffedcba9876543210⟩ := by
  have hdigits : IsDigitsOf ⟨0x0123456789abcdeffedcba9876543210⟩
      "-01234567-89AB-cdEF-fedc--BA9876543210".toList := by decide
  exact ⟨hdigits, ofString_normalises.1 _ _ hdigits ornate⟩

end LicenseId

end LicenseDepot
