import LicenseDepot.Proofs.Text.Character
import LicenseDepot.Text.Utf8
import Mathlib.Data.List.Forall2

/-!
# Reading back UTF-8

What the writer of UTF-8 makes of a character is a leading byte whose payload and ranges are known,
then one byte out of each range, and the payloads add up to the character (`exists_lead`). From this
single fact follow both readings: of all the bytes of a character, and of a part of them. Main
statements: a text is read back from its bytes (`decode_encode`), and a prefix of the bytes of a
text either ends between two characters and is read as a prefix of the text, or ends inside one and
is reported as data that end too early (`decode_of_isPrefix`). Conversely, whatever a leading byte
announces are the bytes of a character (`encodeNat_joined`), so nothing but the bytes of a text is
read (`decode_eq_ok_iff`).
-/

namespace LicenseDepot.Text.Utf8

/-- The code point that continuing bytes complete, given the payload before them. -/
def joined (n : Nat) (tail : Bytes) : Nat :=
  tail.foldl (fun n b => n * 0x40 + b.toNat % 0x40) n

/-- Each byte of `tail` lies in the range at its place. -/
abbrev Continues (ranges : List (Nat × Nat)) (tail : Bytes) : Prop :=
  List.Forall₂ (fun range b => within range b = true) ranges tail

/-- The lemma of the library with the bound as a numeral, for `omega`. -/
theorem toNat_ofNat_of_lt {n : Nat} (h : n < 256) : (UInt8.ofNat n).toNat = n :=
  UInt8.toNat_ofNat_of_lt' h

theorem within_ofNat {low high n : Nat} (hn : n < 256) (h : low ≤ n ∧ n ≤ high) :
    within (low, high) (UInt8.ofNat n) = true := by
  simp [within, toNat_ofNat_of_lt hn, h]

/-- Whether bytes are a leading byte, then one byte out of each range that it announces, which
complete its payload to a code point. -/
def HasLead (k : Nat) (bytes : Bytes) : Prop :=
  ∃ lead tail n ranges, bytes = lead :: tail ∧ lead? lead.toNat = some (n, ranges) ∧
    Continues ranges tail ∧ joined n tail = k

/-- The byte for the last six bits of a number is a continuing one. -/
theorem within_continuing (k : Nat) :
    within continuing (UInt8.ofNat (0x80 + k % 0x40)) = true :=
  within_ofNat (by omega) (by omega)

variable {k : Nat}

theorem hasLead_one (h : k < 0x80) : HasLead k [UInt8.ofNat k] := by
  refine ⟨_, _, k, [], rfl, ?_, .nil, rfl⟩
  rw [toNat_ofNat_of_lt (by omega), lead?, if_pos h]

theorem hasLead_two (hlow : 0x80 ≤ k) (h : k < 0x800) :
    HasLead k [UInt8.ofNat (0xC0 + k / 0x40), UInt8.ofNat (0x80 + k % 0x40)] := by
  refine ⟨_, _, k / 0x40, [continuing], rfl, ?_, .cons (within_continuing k) .nil, ?_⟩
  · rw [toNat_ofNat_of_lt (by omega), lead?, if_neg (by omega), if_neg (by omega),
      if_pos (by omega)]
    congr 2
    omega
  · simp only [joined, List.foldl_cons, List.foldl_nil]
    rw [toNat_ofNat_of_lt (by omega)]
    omega

theorem hasLead_three (hlow : 0x800 ≤ k) (h : k < 0x10000)
    (hvalid : k < 0xD800 ∨ 0xDFFF < k) :
    HasLead k [UInt8.ofNat (0xE0 + k / 0x1000), UInt8.ofNat (0x80 + k / 0x40 % 0x40),
      UInt8.ofNat (0x80 + k % 0x40)] := by
  have hlead : (UInt8.ofNat (0xE0 + k / 0x1000)).toNat = 0xE0 + k / 0x1000 :=
    toNat_ofNat_of_lt (by omega)
  have hjoin : ∀ n, n = k / 0x1000 → joined n [UInt8.ofNat (0x80 + k / 0x40 % 0x40),
      UInt8.ofNat (0x80 + k % 0x40)] = k := by
    intro n hn
    simp only [joined, List.foldl_cons, List.foldl_nil]
    rw [toNat_ofNat_of_lt (by omega), toNat_ofNat_of_lt (by omega)]
    omega
  -- The range of the second byte is narrowed after the bytes 0xE0 and 0xED.
  by_cases hE0 : k / 0x1000 = 0
  · refine ⟨_, _, _, [(0xA0, 0xBF), continuing], rfl, ?_,
      .cons (within_ofNat (by omega) (by omega)) (.cons (within_continuing k) .nil),
      hjoin 0 (by omega)⟩
    rw [hlead, lead?, if_neg (by omega), if_neg (by omega), if_neg (by omega),
      if_pos (by omega), hE0]
  by_cases hED : k / 0x1000 = 0xD
  · refine ⟨_, _, _, [(0x80, 0x9F), continuing], rfl, ?_,
      .cons (within_ofNat (by omega) (by omega)) (.cons (within_continuing k) .nil),
      hjoin 0xD (by omega)⟩
    rw [hlead, lead?, if_neg (by omega), if_neg (by omega), if_neg (by omega),
      if_neg (by omega), if_pos (by omega), hED]
  · refine ⟨_, _, k / 0x1000, [continuing, continuing], rfl, ?_,
      .cons (within_continuing _) (.cons (within_continuing k) .nil), hjoin _ rfl⟩
    rw [hlead, lead?, if_neg (by omega), if_neg (by omega), if_neg (by omega),
      if_neg (by omega), if_neg (by omega), if_pos (by omega)]
    congr 2
    omega

theorem hasLead_four (hlow : 0x10000 ≤ k) (h : k < 0x110000) :
    HasLead k [UInt8.ofNat (0xF0 + k / 0x40000), UInt8.ofNat (0x80 + k / 0x1000 % 0x40),
      UInt8.ofNat (0x80 + k / 0x40 % 0x40), UInt8.ofNat (0x80 + k % 0x40)] := by
  have hlead : (UInt8.ofNat (0xF0 + k / 0x40000)).toNat = 0xF0 + k / 0x40000 :=
    toNat_ofNat_of_lt (by omega)
  have hjoin : ∀ n, n = k / 0x40000 → joined n [UInt8.ofNat (0x80 + k / 0x1000 % 0x40),
      UInt8.ofNat (0x80 + k / 0x40 % 0x40), UInt8.ofNat (0x80 + k % 0x40)] = k := by
    intro n hn
    simp only [joined, List.foldl_cons, List.foldl_nil]
    rw [toNat_ofNat_of_lt (by omega), toNat_ofNat_of_lt (by omega),
      toNat_ofNat_of_lt (by omega)]
    omega
  have hlast : Continues [continuing, continuing]
      [UInt8.ofNat (0x80 + k / 0x40 % 0x40), UInt8.ofNat (0x80 + k % 0x40)] :=
    .cons (within_continuing _) (.cons (within_continuing k) .nil)
  -- The range of the second byte is narrowed after the bytes 0xF0 and 0xF4.
  by_cases hF0 : k / 0x40000 = 0
  · refine ⟨_, _, _, [(0x90, 0xBF), continuing, continuing], rfl, ?_,
      .cons (within_ofNat (by omega) (by omega)) hlast, hjoin 0 (by omega)⟩
    rw [hlead, lead?, if_neg (by omega), if_neg (by omega), if_neg (by omega),
      if_neg (by omega), if_neg (by omega), if_neg (by omega), if_pos (by omega), hF0]
  by_cases hF4 : k / 0x40000 = 4
  · refine ⟨_, _, _, [(0x80, 0x8F), continuing, continuing], rfl, ?_,
      .cons (within_ofNat (by omega) (by omega)) hlast, hjoin 4 (by omega)⟩
    rw [hlead, lead?, if_neg (by omega), if_neg (by omega), if_neg (by omega),
      if_neg (by omega), if_neg (by omega), if_neg (by omega), if_neg (by omega),
      if_neg (by omega), if_pos (by omega), hF4]
  · refine ⟨_, _, k / 0x40000, [continuing, continuing, continuing], rfl, ?_,
      .cons (within_continuing _) hlast, hjoin _ rfl⟩
    rw [hlead, lead?, if_neg (by omega), if_neg (by omega), if_neg (by omega),
      if_neg (by omega), if_neg (by omega), if_neg (by omega), if_neg (by omega),
      if_pos (by omega)]
    congr 2
    omega

/-- The bytes of a character: a leading byte, and bytes in the ranges that it announces. -/
theorem exists_lead (c : Char) : HasLead c.toNat (encodeNat c.toNat) := by
  have hc := toNat_valid c
  generalize c.toNat = k at hc
  unfold encodeNat
  split
  · rename_i h1
    exact hasLead_one h1
  · rename_i h1
    split
    · rename_i h2
      exact hasLead_two (Nat.le_of_not_lt h1) h2
    · rename_i h2
      split
      · rename_i h3
        exact hasLead_three (Nat.le_of_not_lt h2) h3 (hc.imp_right And.left)
      · rename_i h3
        exact hasLead_four (Nat.le_of_not_lt h3) (by omega)

theorem decodeTail_append {seen tail rest : Bytes} {n : Nat} {ranges : List (Nat × Nat)}
    (h : Continues ranges tail) :
    decodeTail seen n ranges (tail ++ rest) = .ok (Char.ofNat (joined n tail), rest) := by
  induction h generalizing seen n with
  | nil => simp [decodeTail, joined]
  | cons hb _ ih =>
    rw [List.cons_append, decodeTail, if_pos hb, ih]
    rfl

theorem decodeTail_of_isPrefix {seen tail cut : Bytes} {n : Nat} {ranges : List (Nat × Nat)}
    (h : Continues ranges tail) (hcut : cut <+: tail) (hne : cut ≠ tail) :
    decodeTail seen n ranges cut = .error (seen ++ cut, .ending) := by
  induction h generalizing seen n cut with
  | nil => exact absurd (List.prefix_nil.1 hcut) hne
  | @cons range b ranges tail hb _ ih =>
    cases cut with
    | nil => simp [decodeTail]
    | cons a cut =>
      obtain ⟨rfl, hrest⟩ := List.cons_prefix_cons.1 hcut
      rw [decodeTail, if_pos hb, ih hrest (fun h => hne (by rw [h])), List.append_assoc]
      rfl

/-- Every character of ASCII takes one byte. -/
theorem length_encode_of_ascii {s : List Char} (h : ∀ c ∈ s, c.toNat < 0x80) :
    (encode s).length = s.length := by
  induction s with
  | nil => rfl
  | cons c s ih =>
    rw [encode_cons, encodeNat, if_pos (h c List.mem_cons_self), List.length_append,
      ih fun d hd => h d (List.mem_cons_of_mem c hd)]
    simp [Nat.add_comm]

theorem decodeFrom_encodeNat (offset : Nat) (done : List Char) (c : Char) (rest : Bytes) :
    decodeFrom offset done (encodeNat c.toNat ++ rest)
      = decodeFrom (offset + c.utf8Size) (c :: done) rest := by
  obtain ⟨lead, tail, n, ranges, henc, hlead, hcont, hjoin⟩ := exists_lead c
  have hchar : decodeChar lead (tail ++ rest) = .ok (c, rest) := by
    rw [decodeChar, hlead]
    simp only
    rw [decodeTail_append hcont, hjoin, Char.ofNat_toNat]
  rw [henc, List.cons_append, decodeFrom]
  split
  · rename_i h
    rw [hchar] at h
    cases h
  · rename_i h
    rw [hchar] at h
    cases h
    rfl

theorem decodeFrom_encode (offset : Nat) (done s : List Char) (rest : Bytes) :
    ∃ next, decodeFrom offset done (encode s ++ rest)
      = decodeFrom next (s.reverse ++ done) rest := by
  induction s generalizing offset done with
  | nil => exact ⟨offset, rfl⟩
  | cons c s ih =>
    obtain ⟨next, hnext⟩ := ih (offset + c.utf8Size) (c :: done)
    refine ⟨next, ?_⟩
    rw [encode_cons, List.append_assoc, decodeFrom_encodeNat, hnext]
    simp

/-- A text is read back from its bytes. -/
theorem decode_encode (s : List Char) : decode (encode s) = .ok s := by
  obtain ⟨next, h⟩ := decodeFrom_encode 0 [] s []
  rw [List.append_nil, List.append_nil] at h
  rw [decode, h, decodeFrom, List.reverse_reverse]

theorem encode_inj {s t : List Char} (h : encode s = encode t) : s = t := by
  have hs := decode_encode s
  rw [h, decode_encode] at hs
  exact (Except.ok.inj hs).symm

theorem decodeFrom_cut (offset : Nat) (done : List Char) (c : Char) {cut : Bytes}
    (hcut : cut <+: encodeNat c.toNat) (hne : cut ≠ encodeNat c.toNat) (hcut' : cut ≠ []) :
    decodeFrom offset done cut = .error ⟨offset, cut, .ending⟩ := by
  obtain ⟨lead, tail, n, ranges, henc, hlead, hcont, -⟩ := exists_lead c
  cases cut with
  | nil => exact absurd rfl hcut'
  | cons b cut =>
    rw [henc] at hcut hne
    obtain ⟨rfl, hrest⟩ := List.cons_prefix_cons.1 hcut
    have hchar : decodeChar b cut = .error (b :: cut, .ending) := by
      rw [decodeChar, hlead]
      simp only
      rw [decodeTail_of_isPrefix hcont hrest (fun h => hne (by rw [h]))]
      rfl
    rw [decodeFrom]
    split
    · rename_i h
      rw [hchar] at h
      cases h
      rfl
    · rename_i h
      rw [hchar] at h
      cases h

/-- A prefix of the bytes of a text ends between two characters or inside one. -/
theorem exists_of_prefix_encode {b : Bytes} {s : List Char} (h : b <+: encode s) :
    (∃ p, p <+: s ∧ b = encode p) ∨
      ∃ p c cut, p ++ [c] <+: s ∧ b = encode p ++ cut ∧ cut <+: encodeNat c.toNat ∧
        cut ≠ encodeNat c.toNat ∧ cut ≠ [] := by
  induction s generalizing b with
  | nil => exact .inl ⟨[], List.nil_prefix, by simpa using h⟩
  | cons c s ih =>
    rw [encode_cons] at h
    rcases List.prefix_or_prefix_of_prefix h (List.prefix_append _ (encode s)) with hb | hb
    · by_cases hnil : b = []
      · exact .inl ⟨[], List.nil_prefix, hnil⟩
      by_cases heq : b = encodeNat c.toNat
      · exact .inl ⟨[c], by simp, by simp [heq]⟩
      · exact .inr ⟨[], c, b, by simp, by simp, hb, heq, hnil⟩
    · obtain ⟨b, rfl⟩ := hb
      rw [List.prefix_append_right_inj] at h
      rcases ih h with ⟨p, hp, rfl⟩ | ⟨p, d, cut, hp, rfl, hcut⟩
      · exact .inl ⟨c :: p, List.cons_prefix_cons.2 ⟨rfl, hp⟩, by simp⟩
      · exact .inr ⟨c :: p, d, cut, List.cons_prefix_cons.2 ⟨rfl, hp⟩, by simp, hcut⟩

/-- A prefix of the bytes of a text is read as a prefix of the text or, if it ends inside a
character, reported as ending there. -/
theorem decode_of_isPrefix {b : Bytes} {s : List Char} (h : b <+: encode s) :
    (∃ p, p <+: s ∧ b = encode p ∧ decode b = .ok p) ∨
      ((∀ p, b ≠ encode p) ∧ ∃ fault, decode b = .error fault ∧ fault.defect = .ending) := by
  rcases exists_of_prefix_encode h with ⟨p, hp, rfl⟩ | ⟨p, c, cut, -, rfl, hcut, hne, hnil⟩
  · exact .inl ⟨p, hp, rfl, decode_encode p⟩
  · obtain ⟨next, hnext⟩ := decodeFrom_encode 0 [] p cut
    rw [decodeFrom_cut next _ c hcut hne hnil] at hnext
    refine .inr ⟨?_, _, hnext, rfl⟩
    intro q hq
    have := decode_encode q
    rw [← hq, decode, hnext] at this
    cases this

/-! Nothing but the bytes of a text is read. -/

theorem decodeTail_eq_ok {seen rest after : Bytes} {n : Nat} {ranges : List (Nat × Nat)} {c : Char}
    (h : decodeTail seen n ranges rest = .ok (c, after)) :
    ∃ tail, rest = tail ++ after ∧ Continues ranges tail ∧ c = Char.ofNat (joined n tail) := by
  induction ranges generalizing seen n rest with
  | nil =>
    rw [decodeTail] at h
    cases h
    exact ⟨[], rfl, .nil, rfl⟩
  | cons range ranges ih =>
    cases rest with
    | nil => cases h
    | cons b rest =>
      rw [decodeTail] at h
      split at h
      · rename_i hb
        obtain ⟨tail, rfl, htail, rfl⟩ := ih h
        exact ⟨b :: tail, rfl, .cons hb htail, rfl⟩
      · cases h

theorem within_iff {low high : Nat} {b : UInt8} :
    within (low, high) b = true ↔ low ≤ b.toNat ∧ b.toNat ≤ high := by
  simp [within]

section Bytes

variable {a b c d : UInt8}

theorem encodeNat_two (hlow : 0xC2 ≤ a.toNat) (hhigh : a.toNat < 0xE0)
    (hb : within continuing b = true) :
    encodeNat (joined (a.toNat % 0x20) [b]) = [a, b] := by
  have hb := within_iff.1 hb
  simp only [joined, List.foldl_cons, List.foldl_nil]
  rw [encodeNat, if_neg (by omega), if_pos (by omega)]
  simp only [List.cons.injEq, and_true, ← UInt8.toNat_inj, UInt8.toNat_ofNat']
  omega

theorem encodeNat_three (hlow : 0xE0 ≤ a.toNat) (hhigh : a.toNat < 0xF0)
    (hb : within continuing b = true) (hc : within continuing c = true)
    (hwide : 0x800 ≤ joined (a.toNat % 0x10) [b, c]) :
    encodeNat (joined (a.toNat % 0x10) [b, c]) = [a, b, c] := by
  have hb := within_iff.1 hb
  have hc := within_iff.1 hc
  simp only [joined, List.foldl_cons, List.foldl_nil] at hwide ⊢
  rw [encodeNat, if_neg (by omega), if_neg (by omega), if_pos (by omega)]
  simp only [List.cons.injEq, and_true, ← UInt8.toNat_inj, UInt8.toNat_ofNat']
  omega

theorem encodeNat_four (hlow : 0xF0 ≤ a.toNat) (hhigh : a.toNat < 0xF5)
    (hb : within continuing b = true) (hc : within continuing c = true)
    (hd : within continuing d = true) (hwide : 0x10000 ≤ joined (a.toNat % 8) [b, c, d]) :
    encodeNat (joined (a.toNat % 8) [b, c, d]) = [a, b, c, d] := by
  have hb := within_iff.1 hb
  have hc := within_iff.1 hc
  have hd := within_iff.1 hd
  simp only [joined, List.foldl_cons, List.foldl_nil] at hwide ⊢
  rw [encodeNat, if_neg (by omega), if_neg (by omega), if_neg (by omega)]
  simp only [List.cons.injEq, and_true, ← UInt8.toNat_inj, UInt8.toNat_ofNat']
  omega

end Bytes

section Lead

variable {a : UInt8} {n low high : Nat} {tail : Bytes}

/-- Two bytes after a leading one of three, the first of them in a range of its own. -/
theorem announces_three (hlead : 0xE0 ≤ a.toNat ∧ a.toNat < 0xF0)
    (htail : Continues [(low, high), continuing] tail) (hlow : 0x80 ≤ low) (hhigh : high ≤ 0xBF)
    (hwide : 0x800 ≤ a.toNat % 0x10 * 0x1000 + (low - 0x80) * 0x40)
    (hvalid : a.toNat % 0x10 * 0x1000 + (high - 0x80) * 0x40 + 0x40 ≤ 0xD800 ∨
      0xDFFF < a.toNat % 0x10 * 0x1000 + (low - 0x80) * 0x40) :
    (joined (a.toNat % 0x10) tail).isValidChar ∧
      encodeNat (joined (a.toNat % 0x10) tail) = a :: tail := by
  obtain _ | ⟨hb, _ | ⟨hc, _ | _⟩⟩ := htail
  rename_i b c
  have hb := within_iff.1 hb
  have hc' := within_iff.1 hc
  have hb' : within continuing b = true := within_iff.2 (by omega)
  have hjoined : joined (a.toNat % 0x10) [b, c]
      = (a.toNat % 0x10 * 0x40 + b.toNat % 0x40) * 0x40 + c.toNat % 0x40 := rfl
  refine ⟨?_, encodeNat_three hlead.1 hlead.2 hb' hc ?_⟩
  · rw [hjoined, Nat.isValidChar]
    omega
  · omega

/-- Three bytes after a leading one of four, the first of them in a range of its own. -/
theorem announces_four (hlead : 0xF0 ≤ a.toNat ∧ a.toNat < 0xF5)
    (htail : Continues [(low, high), continuing, continuing] tail) (hlow : 0x80 ≤ low)
    (hhigh : high ≤ 0xBF) (hwide : 0x10000 ≤ a.toNat % 8 * 0x40000 + (low - 0x80) * 0x1000)
    (hvalid : a.toNat % 8 * 0x40000 + (high - 0x80) * 0x1000 + 0x1000 ≤ 0x110000) :
    (joined (a.toNat % 8) tail).isValidChar ∧
      encodeNat (joined (a.toNat % 8) tail) = a :: tail := by
  obtain _ | ⟨hb, _ | ⟨hc, _ | ⟨hd, _ | _⟩⟩⟩ := htail
  rename_i b c d
  have hb := within_iff.1 hb
  have hc' := within_iff.1 hc
  have hd' := within_iff.1 hd
  have hb' : within continuing b = true := within_iff.2 (by omega)
  have hjoined : joined (a.toNat % 8) [b, c, d]
      = ((a.toNat % 8 * 0x40 + b.toNat % 0x40) * 0x40 + c.toNat % 0x40) * 0x40
        + d.toNat % 0x40 := rfl
  refine ⟨?_, encodeNat_four hlead.1 hlead.2 hb' hc hd ?_⟩
  · rw [hjoined, Nat.isValidChar]
    omega
  · omega

/-- What a leading byte announces is a character, and these are its bytes. -/
theorem encodeNat_joined {ranges : List (Nat × Nat)} (h : lead? a.toNat = some (n, ranges))
    (htail : Continues ranges tail) :
    (joined n tail).isValidChar ∧ encodeNat (joined n tail) = a :: tail := by
  unfold lead? at h
  split at h
  · rename_i hascii
    cases h
    cases htail
    refine ⟨.inl (by simp only [joined, List.foldl_nil]; omega), ?_⟩
    simp only [joined, List.foldl_nil]
    rw [encodeNat, if_pos hascii, UInt8.ofNat_toNat]
  split at h
  · cases h
  split at h
  · rename_i hlow hhigh
    cases h
    obtain _ | ⟨hb, _ | _⟩ := htail
    refine ⟨.inl ?_, encodeNat_two (by omega) hhigh hb⟩
    have hb := within_iff.1 hb
    simp only [joined, List.foldl_cons, List.foldl_nil]
    omega
  split at h
  · cases h
    exact announces_three (by omega) htail (by omega) (by omega) (by omega) (by omega)
  split at h
  · cases h
    exact announces_three (by omega) htail (by omega) (by omega) (by omega) (by omega)
  split at h
  · cases h
    exact announces_three (by omega) htail (by omega) (by omega) (by omega) (by omega)
  split at h
  · cases h
    exact announces_four (by omega) htail (by omega) (by omega) (by omega) (by omega)
  split at h
  · cases h
    exact announces_four (by omega) htail (by omega) (by omega) (by omega) (by omega)
  split at h
  · cases h
    exact announces_four (by omega) htail (by omega) (by omega) (by omega) (by omega)
  · cases h

end Lead

/-- A character that is read is led by its bytes. -/
theorem eq_encodeNat_of_decodeChar {lead : UInt8} {rest after : Bytes} {c : Char}
    (h : decodeChar lead rest = .ok (c, after)) : lead :: rest = encodeNat c.toNat ++ after := by
  unfold decodeChar at h
  split at h
  · cases h
  · rename_i n ranges hlead
    obtain ⟨tail, rfl, htail, rfl⟩ := decodeTail_eq_ok h
    obtain ⟨hvalid, hbytes⟩ := encodeNat_joined hlead htail
    have hchar : (Char.ofNat (joined n tail)).toNat = joined n tail :=
      congrArg Char.toNat (dif_pos hvalid)
    rw [hchar, hbytes, List.cons_append]

theorem decodeFrom_eq_ok {offset : Nat} {done s : List Char} {data : Bytes}
    (h : decodeFrom offset done data = .ok s) : ∃ t, s = done.reverse ++ t ∧ data = encode t := by
  fun_induction decodeFrom offset done data with
  | case1 offset done =>
    cases h
    exact ⟨[], by simp, rfl⟩
  | case2 => cases h
  | case3 offset done lead rest c after hchar _ ih =>
    obtain ⟨t, rfl, rfl⟩ := ih h
    exact ⟨c :: t, by simp, by rw [eq_encodeNat_of_decodeChar hchar, encode_cons]⟩

/-- Nothing is read as a text but its bytes. -/
theorem decode_eq_ok_iff {data : Bytes} {s : List Char} :
    decode data = .ok s ↔ data = encode s := by
  constructor
  · intro h
    obtain ⟨t, rfl, rfl⟩ := decodeFrom_eq_ok h
    rfl
  · rintro rfl
    exact decode_encode s

end LicenseDepot.Text.Utf8
