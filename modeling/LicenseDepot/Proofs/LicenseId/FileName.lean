import LicenseDepot.Files.Walk
import LicenseDepot.Proofs.LicenseId.Canonical
import LicenseDepot.Proofs.Text.Utf8
import Mathlib.Data.List.Induction

/-!
# Names of licence files

The name of a licence file is one that any directory takes, the filter on names lets these names
through and no other ones, and they are in the order of the identifiers: all of them are equally
long, hyphens stand at the same places, and higher digits are higher characters. Main statements:
`isFileName_iff` and `fileName_lt_iff`.
-/

namespace LicenseDepot

open Text Numeral

/-- Whether two texts first differ in a character that is lower in the first one. -/
def Precedes (s t : List Char) : Prop :=
  ∃ p a b u v, s = p ++ a :: u ∧ t = p ++ b :: v ∧ a < b

namespace Precedes

variable {s t : List Char}

theorem lt (h : Precedes s t) : s < t := by
  obtain ⟨p, a, b, u, v, rfl, rfl, hab⟩ := h
  exact List.append_left_lt (List.Lex.rel hab)

theorem append (h : Precedes s t) (x y : List Char) : Precedes (s ++ x) (t ++ y) := by
  obtain ⟨p, a, b, u, v, rfl, rfl, hab⟩ := h
  exact ⟨p, a, b, u ++ x, v ++ y, by simp, by simp, hab⟩

theorem prepend (h : Precedes s t) (x : List Char) : Precedes (x ++ s) (x ++ t) := by
  obtain ⟨p, a, b, u, v, rfl, rfl, hab⟩ := h
  exact ⟨x ++ p, a, b, u, v, by simp, by simp, hab⟩

end Precedes

theorem hexDigit_lt : ∀ k < 16, ∀ j < k, hexDigit j < hexDigit k := by
  decide

theorem isLowerHex_hexDigit : ∀ k < 16, isLowerHex (hexDigit k) = true := by
  decide

/-- Lower numbers have lower numerals, if these are equally long. -/
theorem precedes_hex {width m n : Nat} (hmn : m < n) (hn : n < 16 ^ width) :
    Precedes (hex width m) (hex width n) := by
  induction width generalizing m n with
  | zero =>
    rw [Nat.pow_zero] at hn
    omega
  | succ width ih =>
    rw [hex, hex]
    rcases Nat.lt_or_ge (m / 16) (n / 16) with hlt | hge
    · refine (ih hlt ?_).append _ _
      rw [Nat.pow_succ] at hn
      omega
    · have hfront : m / 16 = n / 16 := by omega
      have hlast : m % 16 < n % 16 := by omega
      rw [hfront]
      exact ⟨_, _, _, [], [], rfl, rfl, hexDigit_lt _ (Nat.mod_lt _ (by decide)) _ hlast⟩

/-- A lower-case digit is that of a value below sixteen. -/
theorem exists_of_isLowerHex {c : Char} (h : isLowerHex c = true) :
    ∃ k < 16, c = hexDigit k := by
  simp only [isLowerHex, Bool.or_eq_true, Bool.and_eq_true, decide_eq_true_eq] at h
  have hcode : ∀ k < 16, (hexDigit k).toNat = if k < 10 then 48 + k else 87 + k := by decide
  have heq : ∀ k < 16, (hexDigit k).toNat = c.toNat → c = hexDigit k :=
    fun k _ hk => Char.ext (UInt32.toNat_inj.1 hk.symm)
  rcases h with ⟨hlow, hhigh⟩ | ⟨hlow, hhigh⟩
  · have hlow : 48 ≤ c.toNat := hlow
    have hhigh : c.toNat ≤ 57 := hhigh
    refine ⟨c.toNat - 48, by omega, heq _ (by omega) ?_⟩
    rw [hcode _ (by omega), if_pos (by omega)]
    omega
  · have hlow : 97 ≤ c.toNat := hlow
    have hhigh : c.toNat ≤ 102 := hhigh
    refine ⟨c.toNat - 87, by omega, heq _ (by omega) ?_⟩
    rw [hcode _ (by omega), if_neg (by omega)]
    omega

/-- A run of lower-case digits is the numeral of its value. -/
theorem hex_valueOf {s : List Char} (h : ∀ c ∈ s, isLowerHex c = true) :
    hex s.length (Integer.valueOf 16 s) = s ∧ Integer.valueOf 16 s < 16 ^ s.length := by
  induction s using List.reverseRecOn with
  | nil => exact ⟨rfl, by decide⟩
  | append_singleton s c ih =>
    obtain ⟨hs, hlt⟩ := ih fun d hd => h d (List.mem_append_left _ hd)
    obtain ⟨k, hk, rfl⟩ := exists_of_isLowerHex (h c (by simp))
    have hvalue : Integer.valueOf 16 (s ++ [hexDigit k]) = Integer.valueOf 16 s * 16 + k := by
      simp only [Integer.valueOf, List.foldl_append, List.foldl_cons, List.foldl_nil,
        digitValue?_hexDigit k hk, Option.getD_some]
    rw [hvalue, List.length_append, List.length_singleton, hex, Nat.pow_succ]
    constructor
    · rw [show (Integer.valueOf 16 s * 16 + k) / 16 = Integer.valueOf 16 s by omega,
        show (Integer.valueOf 16 s * 16 + k) % 16 = k by omega, hs]
    · omega

namespace LicenseId

/-- A text with a hyphen after each group of so many characters, and after the last of these groups
whatever is left. -/
def grouped : List Nat → List Char → List Char
  | [], s => s
  | n :: ns, s => s.take n ++ '-' :: grouped ns (s.drop n)

theorem hyphenated_eq_grouped (digits : List Char) :
    hyphenated digits = grouped [8, 4, 4, 4] digits := by
  simp [hyphenated, grouped]

theorem precedes_grouped {s t : List Char} (h : Precedes s t) (ns : List Nat) :
    Precedes (grouped ns s) (grouped ns t) := by
  induction ns generalizing s t with
  | nil => exact h
  | cons n ns ih =>
    obtain ⟨p, a, b, u, v, rfl, rfl, hab⟩ := h
    rw [grouped, grouped]
    rcases Nat.lt_or_ge p.length n with hlt | hge
    · -- The texts differ within the first group.
      obtain ⟨k, hk⟩ : ∃ k, n - p.length = k + 1 := ⟨n - p.length - 1, by omega⟩
      have htake : ∀ (c : Char) (x : List Char), (p ++ c :: x).take n = p ++ c :: x.take k := by
        intro c x
        rw [List.take_append, List.take_of_length_le (Nat.le_of_lt hlt), hk, List.take_succ_cons]
      rw [htake, htake, List.append_assoc, List.append_assoc, List.cons_append, List.cons_append]
      exact ⟨p, a, b, _, _, rfl, rfl, hab⟩
    · -- The first group is the same.
      have htake : ∀ x : List Char, (p ++ x).take n = p.take n := by
        intro x
        rw [List.take_append_of_le_length hge]
      have hdrop : ∀ x : List Char, (p ++ x).drop n = p.drop n ++ x := by
        intro x
        rw [List.drop_append_of_le_length hge]
      rw [htake, htake, hdrop, hdrop]
      refine Precedes.prepend (Precedes.prepend (ih ?_) ['-']) _
      exact ⟨_, a, b, u, v, rfl, rfl, hab⟩

theorem toList_fileName (id : LicenseId) : id.fileName.toList = id.chars ++ fileExtension :=
  String.toList_ofList

theorem fileName_eq_append (id : LicenseId) : id.fileName = id.toText ++ ".license" := by
  rw [← String.toList_inj, toList_fileName, String.toList_append, toText, String.toList_ofList]
  rfl

theorem fileName_lt {id id' : LicenseId} (h : id.value < id'.value) :
    id.fileName < id'.fileName := by
  have hhex : Precedes (hex 32 id.value.toNat) (hex 32 id'.value.toNat) :=
    precedes_hex h id'.value.isLt
  have hchars : Precedes id.chars id'.chars := by
    rw [chars, chars, hyphenated_eq_grouped, hyphenated_eq_grouped]
    exact precedes_grouped hhex _
  have hname := (hchars.append fileExtension fileExtension).lt
  rw [← toList_fileName, ← toList_fileName] at hname
  exact hname

/-- Names of licence files are in the order of the identifiers. -/
theorem fileName_lt_iff {id id' : LicenseId} :
    id.fileName < id'.fileName ↔ id.value < id'.value := by
  constructor
  · intro hname
    have hne : id ≠ id' := by
      rintro rfl
      exact String.lt_irrefl _ hname
    rcases ne_iff_lt_or_gt.1 hne with hlt | hgt
    · exact hlt
    · exact absurd hname (String.lt_asymm (fileName_lt hgt))
  · exact fileName_lt

theorem fileName_inj {id id' : LicenseId} (h : id.fileName = id'.fileName) : id = id' := by
  have hchars : id.chars = id'.chars := by
    have hlist := congrArg String.toList h
    rw [toList_fileName, toList_fileName] at hlist
    exact List.append_cancel_right hlist
  have hread := read_chars id
  rw [hchars, read_chars] at hread
  cases hread
  rfl

/-! What the names are made of. -/

theorem hexRun_append {n : Nat} {s : List Char} (hlength : s.length = n)
    (hhex : ∀ c ∈ s, isLowerHex c = true) (rest : List Char) :
    hexRun n (s ++ rest) = some rest := by
  unfold hexRun
  rw [List.take_left' hlength, List.drop_left' hlength,
    if_pos ⟨hlength, List.all_eq_true.2 hhex⟩]

/-- The name of a licence file is taken for one. -/
theorem isFileName_fileName (id : LicenseId) : isFileName id.fileName = true := by
  have hlength : (hex 32 id.value.toNat).length = 32 := length_hex _ _
  have hhex : ∀ c ∈ hex 32 id.value.toNat, isLowerHex c = true := by
    intro c hc
    obtain ⟨k, hk, rfl⟩ := exists_of_mem_hex hc
    exact isLowerHex_hexDigit k hk
  unfold isFileName
  rw [toList_fileName, chars]
  generalize hex 32 id.value.toNat = digits at hlength hhex
  have hgroup : ∀ n m rest, n + m ≤ 32 →
      hexRun m ((digits.drop n).take m ++ rest) = some rest := by
    intro n m rest hnm
    apply hexRun_append
    · rw [List.length_take, List.length_drop, hlength]
      omega
    · intro c hc
      exact hhex c (List.mem_of_mem_drop (List.mem_of_mem_take hc))
  have hfirst : ∀ rest, hexRun 8 (digits.take 8 ++ rest) = some rest :=
    fun rest => hgroup 0 8 rest (by decide)
  have hlast : ∀ rest, hexRun 12 (digits.drop 20 ++ rest) = some rest := by
    intro rest
    refine hexRun_append ?_ (fun c hc => hhex c (List.mem_of_mem_drop hc)) rest
    rw [List.length_drop, hlength]
  simp only [hyphenated, List.append_assoc, List.cons_append, hfirst, hlast, afterHyphen,
    hgroup _ 4 _ (by decide : 8 + 4 ≤ 32), hgroup _ 4 _ (by decide : 12 + 4 ≤ 32),
    hgroup _ 4 _ (by decide : 16 + 4 ≤ 32), Option.bind_eq_bind, Option.bind_some,
    beq_self_eq_true]

theorem hexRun_eq_some_iff {n : Nat} {s rest : List Char} :
    hexRun n s = some rest ↔
      ∃ run, run.length = n ∧ (∀ c ∈ run, isLowerHex c = true) ∧ s = run ++ rest := by
  constructor
  · intro h
    unfold hexRun at h
    split at h
    · rename_i hrun
      cases h
      exact ⟨s.take n, hrun.1, List.all_eq_true.1 hrun.2, (List.take_append_drop n s).symm⟩
    · cases h
  · rintro ⟨run, hlength, hhex, rfl⟩
    exact hexRun_append hlength hhex rest

theorem afterHyphen_eq_some_iff {s rest : List Char} :
    afterHyphen s = some rest ↔ s = '-' :: rest := by
  unfold afterHyphen
  split
  · simp
  · rename_i hno
    constructor
    · rintro ⟨⟩
    · rintro rfl
      exact absurd rfl (hno rest)

theorem grouped_cons_append {n : Nat} {s : List Char} (h : s.length = n) (ns : List Nat)
    (rest : List Char) : grouped (n :: ns) (s ++ rest) = s ++ '-' :: grouped ns rest := by
  rw [grouped, List.take_left' h, List.drop_left' h]

/-- The names that are taken for those of licence files are those of licence files. -/
theorem isFileName_iff {name : String} :
    isFileName name = true ↔ ∃ id : LicenseId, name = id.fileName := by
  constructor
  · intro h
    simp only [isFileName, Option.bind_eq_bind, beq_iff_eq, Option.bind_eq_some_iff,
      hexRun_eq_some_iff, afterHyphen_eq_some_iff] at h
    obtain ⟨_, ⟨a, ha, hahex, hname⟩, _, rfl, _, ⟨b, hb, hbhex, rfl⟩, _, rfl, _,
      ⟨c, hc, hchex, rfl⟩, _, rfl, _, ⟨d, hd, hdhex, rfl⟩, _, rfl, e, he, hehex, rfl⟩ := h
    have hdigits : ∀ x ∈ a ++ b ++ c ++ d ++ e, isLowerHex x = true := by
      intro x hx
      simp only [List.mem_append] at hx
      rcases hx with (((hx | hx) | hx) | hx) | hx
      · exact hahex x hx
      · exact hbhex x hx
      · exact hchex x hx
      · exact hdhex x hx
      · exact hehex x hx
    have hlength : (a ++ b ++ c ++ d ++ e).length = 32 := by
      simp only [List.length_append]
      omega
    obtain ⟨hhex, hlt⟩ := hex_valueOf hdigits
    rw [hlength] at hhex hlt
    refine ⟨⟨BitVec.ofNat 128 (Integer.valueOf 16 (a ++ b ++ c ++ d ++ e))⟩, ?_⟩
    have hvalue : Integer.valueOf 16 (a ++ b ++ c ++ d ++ e) % 2 ^ 128
        = Integer.valueOf 16 (a ++ b ++ c ++ d ++ e) := Nat.mod_eq_of_lt hlt
    have hgroups : hyphenated (a ++ b ++ c ++ d ++ e)
        = a ++ '-' :: (b ++ '-' :: (c ++ '-' :: (d ++ '-' :: e))) := by
      simp only [hyphenated_eq_grouped, List.append_assoc]
      rw [grouped_cons_append ha, grouped_cons_append hb, grouped_cons_append hc,
        grouped_cons_append hd, grouped]
    rw [← String.toList_inj, hname, toList_fileName, chars, BitVec.toNat_ofNat, hvalue, hhex,
      hgroups]
    simp only [List.append_assoc, List.cons_append]
  · rintro ⟨id, rfl⟩
    exact isFileName_fileName id

theorem isAscii_of_mem_fileName {id : LicenseId} {c : Char} (h : c ∈ id.fileName.toList) :
    0 < c.toNat ∧ c.toNat < 0x80 := by
  have hdigit : ∀ k < 16, 0 < (hexDigit k).toNat ∧ (hexDigit k).toNat < 0x80 := by decide
  have hextension : ∀ c ∈ fileExtension, 0 < c.toNat ∧ c.toNat < 0x80 :=
    forall_mem_of_all (by decide)
  rw [toList_fileName, List.mem_append] at h
  rcases h with h | h
  · rcases mem_chars h with rfl | ⟨k, hk, rfl⟩
    · decide
    · exact hdigit k hk
  · exact hextension c h

/-- All names of licence files have the same number of bytes. -/
theorem byteLength_fileName (id : LicenseId) : Path.byteLength id.fileName = 44 := by
  have hlength : id.fileName.toList.length = 44 := by
    rw [toList_fileName, List.length_append, length_chars]
    rfl
  rw [Path.byteLength, Utf8.length_encode_of_ascii fun c hc => (isAscii_of_mem_fileName hc).2,
    hlength]

theorem nul_notMem_fileName (id : LicenseId) : '\x00' ∉ id.fileName.toList :=
  fun h => absurd (isAscii_of_mem_fileName h).1 (by decide)

theorem slash_notMem_fileName (id : LicenseId) : '/' ∉ id.fileName.toList := by
  have hdigit : ∀ k < 16, '/' ≠ hexDigit k := by decide
  rw [toList_fileName, List.mem_append]
  rintro (h | h)
  · rcases mem_chars h with heq | ⟨k, hk, heq⟩
    · exact absurd heq (by decide)
    · exact hdigit k hk heq
  · exact absurd h (by decide)

theorem fileName_ne_up (id : LicenseId) : id.fileName ≠ ".." := by
  intro h
  have hbytes := byteLength_fileName id
  rw [h] at hbytes
  exact absurd hbytes (by decide)

end LicenseId

end LicenseDepot
