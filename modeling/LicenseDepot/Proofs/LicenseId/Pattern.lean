import LicenseDepot.Proofs.LicenseId.FileName
import Mathlib.Computability.RegularExpressions

/-!
# The form of names of licence files

The filter on names takes off one run of digits or hyphen after the other. What is let through is
the language of the regular expression `[0-9a-f]{8}(?:-[0-9a-f]{4}){3}-[0-9a-f]{12}\.license`: each
step of the filter takes off a word of one factor, and steps in a row take off a word of the
product. Main statement: `isFileName_iff_mem_filePattern`.
-/

namespace LicenseDepot

open Text RegularExpression

/-- Any one of some characters. -/
def oneOf (cs : List Char) : RegularExpression Char :=
  cs.foldr (fun c P => char c + P) 0

/-- The characters of a text, one after the other. -/
def literal (s : List Char) : RegularExpression Char :=
  s.foldr (fun c P => char c * P) 1

theorem mem_oneOf {cs s : List Char} : s ∈ (oneOf cs).matches' ↔ ∃ c ∈ cs, s = [c] := by
  induction cs with
  | nil => simp [oneOf]
  | cons c cs ih =>
    rw [oneOf, List.foldr_cons, ← oneOf, matches'_add, Language.mem_add, ih,
      List.exists_mem_cons_iff]
    rfl

theorem mem_literal {s t : List Char} : t ∈ (literal s).matches' ↔ t = s := by
  induction s generalizing t with
  | nil => exact Language.mem_one t
  | cons c s ih =>
    rw [literal, List.foldr_cons, ← literal, matches'_mul, Language.mem_mul]
    constructor
    · rintro ⟨_, rfl, _, ht, rfl⟩
      rw [ih.1 ht]
      rfl
    · rintro rfl
      exact ⟨[c], rfl, s, ih.2 rfl, rfl⟩

/-- So many of some characters are a text of that length made of them. -/
theorem mem_oneOf_pow {cs s : List Char} {n : Nat} :
    s ∈ (oneOf cs ^ n).matches' ↔ s.length = n ∧ ∀ c ∈ s, c ∈ cs := by
  induction n generalizing s with
  | zero =>
    rw [matches'_pow, pow_zero, Language.mem_one, List.length_eq_zero_iff]
    constructor
    · rintro rfl
      simp
    · exact And.left
  | succ n ih =>
    rw [matches'_pow, pow_succ, ← matches'_pow, Language.mem_mul]
    constructor
    · rintro ⟨front, hfront, _, hlast, rfl⟩
      obtain ⟨c, hc, rfl⟩ := mem_oneOf.1 hlast
      obtain ⟨hlength, hall⟩ := ih.1 hfront
      refine ⟨by rw [List.length_append, hlength, List.length_singleton], fun d hd => ?_⟩
      rcases List.mem_append.1 hd with hd | hd
      · exact hall d hd
      · rwa [List.mem_singleton.1 hd]
    · rintro ⟨hlength, hall⟩
      rcases List.eq_nil_or_concat s with rfl | ⟨front, c, rfl⟩
      · cases hlength
      · rw [List.concat_eq_append, List.length_append, List.length_singleton] at hlength
        rw [List.concat_eq_append] at hall
        exact ⟨front, ih.2 ⟨by omega, fun d hd => hall d (List.mem_append_left _ hd)⟩, [c],
          mem_oneOf.2 ⟨c, hall c (by simp), rfl⟩, (List.concat_eq_append ..).symm⟩

/-- Whether a step takes off the words of a language and leaves what follows them. -/
def TakesOff (step : List Char → Option (List Char)) (L : Language Char) : Prop :=
  ∀ s rest, step s = some rest ↔ ∃ word ∈ L, s = word ++ rest

/-- Two steps in a row take off a word of each language. -/
theorem TakesOff.bind {step next : List Char → Option (List Char)} {L M : Language Char}
    (hstep : TakesOff step L) (hnext : TakesOff next M) :
    TakesOff (fun s => step s >>= next) (L * M) := by
  intro s rest
  rw [Option.bind_eq_bind, Option.bind_eq_some_iff]
  constructor
  · rintro ⟨_, hfirst, hsecond⟩
    obtain ⟨word, hword, rfl⟩ := (hstep _ _).1 hfirst
    obtain ⟨word', hword', rfl⟩ := (hnext _ _).1 hsecond
    exact ⟨word ++ word', Language.append_mem_mul hword hword', (List.append_assoc ..).symm⟩
  · rintro ⟨_, hwords, rfl⟩
    obtain ⟨word, hword, word', hword', rfl⟩ := Language.mem_mul.1 hwords
    exact ⟨word' ++ rest, (hstep _ _).2 ⟨word, hword, List.append_assoc ..⟩,
      (hnext _ _).2 ⟨word', hword', rfl⟩⟩

namespace LicenseId

/-- The lower-case hexadecimal digits. -/
def lowerHexDigits : List Char :=
  "0123456789abcdef".toList

/-- The form of the name of a licence file. -/
def filePattern : RegularExpression Char :=
  oneOf lowerHexDigits ^ 8 * (char '-' * oneOf lowerHexDigits ^ 4) ^ 3 * char '-'
    * oneOf lowerHexDigits ^ 12 * literal fileExtension

theorem isLowerHex_iff_mem {c : Char} : isLowerHex c = true ↔ c ∈ lowerHexDigits := by
  constructor
  · intro h
    have hdigit : ∀ k < 16, hexDigit k ∈ lowerHexDigits := by decide
    obtain ⟨k, hk, rfl⟩ := exists_of_isLowerHex h
    exact hdigit k hk
  · have hall : ∀ c ∈ lowerHexDigits, isLowerHex c = true := forall_mem_of_all (by decide)
    exact hall c

theorem takesOff_hexRun (n : Nat) : TakesOff (hexRun n) (oneOf lowerHexDigits ^ n).matches' := by
  intro s rest
  simp only [hexRun_eq_some_iff, mem_oneOf_pow, isLowerHex_iff_mem, and_assoc]

theorem takesOff_afterHyphen : TakesOff afterHyphen (char '-').matches' := by
  intro s rest
  rw [afterHyphen_eq_some_iff]
  constructor
  · rintro rfl
    exact ⟨['-'], rfl, rfl⟩
  · rintro ⟨_, rfl, rfl⟩
    rfl

/-- The names that are taken for those of licence files are the words of the expression. -/
theorem isFileName_iff_mem_filePattern {name : String} :
    isFileName name = true ↔ name.toList ∈ filePattern.matches' := by
  have hgroup : ∀ n {next : List Char → Option (List Char)} {L : Language Char}, TakesOff next L →
      TakesOff (fun s => hexRun n s >>= fun s => afterHyphen s >>= next)
        ((oneOf lowerHexDigits ^ n).matches' * ((char '-').matches' * L)) :=
    fun n _ _ hnext => (takesOff_hexRun n).bind (takesOff_afterHyphen.bind hnext)
  have hname := hgroup 8 (hgroup 4 (hgroup 4 (hgroup 4 (takesOff_hexRun 12))))
  -- The filter is these steps, with the extension left by the last one.
  have hfilter : isFileName name = true ↔
      (hexRun 8 name.toList >>= fun s => afterHyphen s >>= fun s => hexRun 4 s >>= fun s =>
        afterHyphen s >>= fun s => hexRun 4 s >>= fun s => afterHyphen s >>= fun s =>
          hexRun 4 s >>= fun s => afterHyphen s >>= hexRun 12) = some fileExtension :=
    beq_iff_eq
  have hcube : ∀ P : RegularExpression Char,
      (P ^ 3).matches' = P.matches' * (P.matches' * P.matches') := by
    intro P
    rw [matches'_pow, pow_three]
  rw [hfilter, hname, filePattern, matches'_mul, Language.mem_mul]
  simp only [mem_literal, matches'_mul, hcube, mul_assoc, exists_eq_left, eq_comm]

end LicenseId

end LicenseDepot
