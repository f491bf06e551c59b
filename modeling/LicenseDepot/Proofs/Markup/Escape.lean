import LicenseDepot.Markup.Token
import LicenseDepot.Markup.Writer
import LicenseDepot.Proofs.Text.Character
import Mathlib.Data.List.TakeWhile

/-!
# Reading back escaped text

Each character of a text is written as one piece: as itself, or as a reference to what it stands
for. Reading an escaped text gives these pieces one by one (`pieces_escape`,
`pieces_escapeAttribute`). The characters that would end a run of text or an attribute value, or
that a reader would change, do not occur in escaped text.
-/

namespace LicenseDepot.Markup

open Text

/-- The piece that a character of text is written as. -/
def textPiece (c : Char) : Piece :=
  if c = '&' then .entity "amp".toList
  else if c = '<' then .entity "lt".toList
  else if c = '>' then .entity "gt".toList
  else .literal c

/-- The piece that a character of an attribute value is written as. -/
def attributePiece (c : Char) : Piece :=
  if c = '"' then .entity "quot".toList
  else if c = '\r' ∨ c = '\n' ∨ c = '\t' then .character c
  else textPiece c

theorem piecesFrom_literal {done : List Piece} {c : Char} {s : List Char} (h : c ≠ '&') :
    piecesFrom done (c :: s) = piecesFrom (.literal c :: done) s := by
  rw [piecesFrom, if_neg h]

/-- A reference ends at the first semicolon. -/
theorem splitReference?_append {body s : List Char} (h : ∀ c ∈ body, c ≠ ';') :
    splitReference? (body ++ ';' :: s) = some (body, s) := by
  have hbody : ∀ c ∈ body, (c != ';') = true := by simpa using h
  have hdrop : (body ++ ';' :: s).dropWhile (· != ';') = ';' :: s := by
    rw [List.dropWhile_append_of_pos hbody]
    rfl
  have htake : (body ++ ';' :: s).takeWhile (· != ';') = body := by
    rw [List.takeWhile_append_of_pos hbody]
    simp
  rw [splitReference?, hdrop, htake]

/-- A reference is read as one piece, whatever follows it. -/
theorem piecesFrom_reference {done : List Piece} (body : List Char) {s : List Char} {p : Piece}
    (hbody : ∀ c ∈ body, c ≠ ';') (h : Piece.ofReference? body = some p) :
    piecesFrom done ('&' :: (body ++ ';' :: s)) = piecesFrom (p :: done) s := by
  have hsplit := splitReference?_append (s := s) hbody
  rw [piecesFrom, if_pos rfl]
  split
  · rename_i hnone
    rw [hsplit] at hnone
    cases hnone
  · rename_i hsome
    rw [hsplit] at hsome
    cases hsome
    rw [h]

/-- The characters that a character of text is written with are read as its piece. There is one case
for each reference that `escapeChar` writes. -/
theorem piecesFrom_escapeChar (done : List Piece) (c : Char) (s : List Char) :
    piecesFrom done (escapeChar c ++ s) = piecesFrom (textPiece c :: done) s := by
  unfold escapeChar textPiece
  by_cases hamp : c = '&'
  · rw [if_pos hamp, if_pos hamp]
    exact piecesFrom_reference ['a', 'm', 'p'] (forall_mem_of_all (by decide)) (by decide)
  rw [if_neg hamp, if_neg hamp]
  by_cases hlt : c = '<'
  · rw [if_pos hlt, if_pos hlt]
    exact piecesFrom_reference ['l', 't'] (forall_mem_of_all (by decide)) (by decide)
  rw [if_neg hlt, if_neg hlt]
  by_cases hgt : c = '>'
  · rw [if_pos hgt, if_pos hgt]
    exact piecesFrom_reference ['g', 't'] (forall_mem_of_all (by decide)) (by decide)
  rw [if_neg hgt, if_neg hgt]
  exact piecesFrom_literal hamp

/-- The same for a character of an attribute value, for which four more references are written. -/
theorem piecesFrom_escapeAttributeChar (done : List Piece) (c : Char) (s : List Char) :
    piecesFrom done (escapeAttributeChar c ++ s) = piecesFrom (attributePiece c :: done) s := by
  unfold escapeAttributeChar attributePiece
  by_cases hquot : c = '"'
  · rw [if_pos hquot, if_pos hquot]
    exact piecesFrom_reference ['q', 'u', 'o', 't'] (forall_mem_of_all (by decide)) (by decide)
  rw [if_neg hquot, if_neg hquot]
  by_cases hcr : c = '\r'
  · subst hcr
    exact piecesFrom_reference ['#', '1', '3'] (forall_mem_of_all (by decide)) (by decide)
  rw [if_neg hcr]
  by_cases hlf : c = '\n'
  · subst hlf
    exact piecesFrom_reference ['#', '1', '0'] (forall_mem_of_all (by decide)) (by decide)
  rw [if_neg hlf]
  by_cases htab : c = '\t'
  · subst htab
    exact piecesFrom_reference ['#', '0', '9'] (forall_mem_of_all (by decide)) (by decide)
  rw [if_neg htab, if_neg (by simp [hcr, hlf, htab])]
  exact piecesFrom_escapeChar done c s

/-- Where every character is written as one piece, a text is read as its pieces. -/
theorem pieces_flatMap {write : Char → List Char} {piece : Char → Piece}
    (h : ∀ done c s, piecesFrom done (write c ++ s) = piecesFrom (piece c :: done) s)
    (s : List Char) : pieces (s.flatMap write) = .ok (s.map piece) := by
  have key : ∀ done, piecesFrom done (s.flatMap write) = .ok (done.reverse ++ s.map piece) := by
    induction s with
    | nil =>
      intro done
      simp [piecesFrom]
    | cons c s ih =>
      intro done
      rw [List.flatMap_cons, h, ih]
      simp
  exact key []

/-- Escaped text is read as the pieces of its characters, one by one. -/
theorem pieces_escape (s : List Char) : pieces (escape s) = .ok (s.map textPiece) :=
  pieces_flatMap piecesFrom_escapeChar s

/-- So is an escaped attribute value. -/
theorem pieces_escapeAttribute (s : List Char) :
    pieces (escapeAttribute s) = .ok (s.map attributePiece) :=
  pieces_flatMap piecesFrom_escapeAttributeChar s

/-! What occurs in escaped text. -/

theorem escapeChar_ne_nil (c : Char) : escapeChar c ≠ [] := by
  unfold escapeChar
  split
  · decide
  split
  · decide
  split
  · decide
  · exact List.cons_ne_nil _ _

theorem escape_ne_nil {s : List Char} (h : s ≠ []) : escape s ≠ [] := by
  cases s with
  | nil => exact absurd rfl h
  | cons c s => simp [escape, escapeChar_ne_nil]

/-- The characters that references are written with. -/
def referenceChars : List Char :=
  "&ampltgquo;#1309".toList

theorem plain_of_mem_referenceChars : ∀ d ∈ referenceChars, d ≠ '<' ∧ d ≠ '>' ∧ d ≠ '"' :=
  forall_mem_of_all (by decide)

/-- Escaped text holds no bracket, but in place of the characters that it spells. -/
theorem mem_escapeChar {c d : Char} (h : d ∈ escapeChar c) :
    d = c ∧ d ≠ '<' ∧ d ≠ '>' ∨ d ∈ referenceChars := by
  have hamp : ∀ d ∈ "&amp;".toList, d ∈ referenceChars := forall_mem_of_all (by decide)
  have hlt : ∀ d ∈ "&lt;".toList, d ∈ referenceChars := forall_mem_of_all (by decide)
  have hgt : ∀ d ∈ "&gt;".toList, d ∈ referenceChars := forall_mem_of_all (by decide)
  unfold escapeChar at h
  split at h
  · exact .inr (hamp d h)
  split at h
  · exact .inr (hlt d h)
  split at h
  · exact .inr (hgt d h)
  · rename_i hlt hgt
    rw [List.mem_singleton] at h
    subst h
    exact .inl ⟨rfl, hlt, hgt⟩

theorem mem_escapeAttributeChar {c d : Char} (h : d ∈ escapeAttributeChar c) :
    d = c ∧ d ≠ '<' ∧ d ≠ '>' ∧ d ≠ '"' ∧ d ≠ '\r' ∨ d ∈ referenceChars := by
  have hquot : ∀ d ∈ "&quot;".toList, d ∈ referenceChars := forall_mem_of_all (by decide)
  have hcr : ∀ d ∈ "&#13;".toList, d ∈ referenceChars := forall_mem_of_all (by decide)
  have hlf : ∀ d ∈ "&#10;".toList, d ∈ referenceChars := forall_mem_of_all (by decide)
  have htab : ∀ d ∈ "&#09;".toList, d ∈ referenceChars := forall_mem_of_all (by decide)
  unfold escapeAttributeChar at h
  split at h
  · exact .inr (hquot d h)
  split at h
  · exact .inr (hcr d h)
  split at h
  · exact .inr (hlf d h)
  split at h
  · exact .inr (htab d h)
  · rename_i hquot hcr _ _
    rcases mem_escapeChar h with ⟨rfl, hlt, hgt⟩ | hd
    · exact .inl ⟨rfl, hlt, hgt, hquot, hcr⟩
    · exact .inr hd

/-- Brackets do not occur in escaped text, so a run of it ends at the next tag. -/
theorem ne_of_mem_escape {s : List Char} {d : Char} (h : d ∈ escape s) : d ≠ '<' ∧ d ≠ '>' := by
  obtain ⟨c, -, hd⟩ := List.mem_flatMap.1 h
  rcases mem_escapeChar hd with ⟨-, hlt, hgt⟩ | hd
  · exact ⟨hlt, hgt⟩
  · have hplain := plain_of_mem_referenceChars d hd
    exact ⟨hplain.1, hplain.2.1⟩

/-- Nor does a quote occur in an escaped value, so the value ends at its closing quote. -/
theorem ne_of_mem_escapeAttribute {s : List Char} {d : Char} (h : d ∈ escapeAttribute s) :
    d ≠ '<' ∧ d ≠ '>' ∧ d ≠ '"' := by
  obtain ⟨c, -, hd⟩ := List.mem_flatMap.1 h
  rcases mem_escapeAttributeChar hd with ⟨-, hlt, hgt, hquot, -⟩ | hd
  · exact ⟨hlt, hgt, hquot⟩
  · exact plain_of_mem_referenceChars d hd

/-- A class that holds the characters of a text and those of references holds what is written. -/
theorem all_escape {p : Char → Prop} (hp : ∀ d ∈ referenceChars, p d) {s : List Char}
    (h : ∀ c ∈ s, p c) {d : Char} (hd : d ∈ escape s) : p d := by
  obtain ⟨c, hc, hd⟩ := List.mem_flatMap.1 hd
  rcases mem_escapeChar hd with ⟨rfl, -⟩ | hd
  · exact h d hc
  · exact hp d hd

theorem all_escapeAttribute {p : Char → Prop} (hp : ∀ d ∈ referenceChars, p d)
    {s : List Char} (h : ∀ c ∈ s, c ≠ '\r' → p c) {d : Char} (hd : d ∈ escapeAttribute s) :
    p d := by
  obtain ⟨c, hc, hd⟩ := List.mem_flatMap.1 hd
  rcases mem_escapeAttributeChar hd with ⟨rfl, -, -, -, hcr⟩ | hd
  · exact h d hc hcr
  · exact hp d hd

/-- Without a closing bracket there is no end of a section, which text may not hold. -/
theorem hasSectionEnd_of_ne {s : List Char} (h : ∀ c ∈ s, c ≠ '>') : hasSectionEnd s = false := by
  have key : ∀ done, splitSection? done s = none := by
    induction s with
    | nil =>
      intro done
      rfl
    | cons c s ih =>
      intro done
      have hno : ¬ (c = ']' ∧ s.take 2 = [']', '>']) := by
        rintro ⟨-, htake⟩
        have hmem : '>' ∈ s.take 2 := by simp [htake]
        exact h '>' (List.mem_cons_of_mem c (List.mem_of_mem_take hmem)) rfl
      rw [splitSection?, if_neg hno]
      exact ih (fun d hd => h d (List.mem_cons_of_mem c hd)) _
  rw [hasSectionEnd, key]
  rfl

end LicenseDepot.Markup
