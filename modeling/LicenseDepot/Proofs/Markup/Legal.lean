import LicenseDepot.Proofs.Markup.Cut
import LicenseDepot.Proofs.Markup.Written

/-!
# Legal characters in the tokens of a text

A document holds none but the characters that it may hold, and reading it brings in no others: a
piece of character data is a character of the text, a reference to a character that is legal too, or
the name of an entity. Here this is followed from a text to its tokens. Each reader of a part is
given a legal text, and what it reads and what it leaves over are legal. Main statement:
`isLegal_scan`.
-/

namespace LicenseDepot.Markup

/-- Whether a document may hold all characters of a text. -/
def IsXmlText (s : List Char) : Prop :=
  ∀ c ∈ s, isXmlChar c = true

variable {s t rest : List Char} {c : Char}

theorem isXmlText_nil : IsXmlText [] := by
  simp [IsXmlText]

theorem isXmlText_cons : IsXmlText (c :: s) ↔ isXmlChar c = true ∧ IsXmlText s :=
  List.forall_mem_cons

theorem isXmlText_append : IsXmlText (s ++ t) ↔ IsXmlText s ∧ IsXmlText t :=
  List.forall_mem_append

namespace IsXmlText

theorem of_subset (h : IsXmlText s) (hsub : t ⊆ s) : IsXmlText t :=
  fun c hc => h c (hsub hc)

theorem takeWhile (h : IsXmlText s) (p : Char → Bool) : IsXmlText (s.takeWhile p) :=
  h.of_subset (List.takeWhile_subset p)

theorem dropWhile (h : IsXmlText s) (p : Char → Bool) : IsXmlText (s.dropWhile p) :=
  h.of_subset (List.dropWhile_subset p)

theorem drop (h : IsXmlText s) (n : Nat) : IsXmlText (s.drop n) :=
  fun c hc => h c (List.mem_of_mem_drop hc)

theorem afterChar? {a : Char} (h : IsXmlText s) (hread : Markup.afterChar? a s = some rest) :
    IsXmlText rest := by
  rw [eq_of_afterChar? hread] at h
  exact (isXmlText_cons.1 h).2

/-- Line ends are made of line feeds, which every document may hold. -/
theorem lineEnds (h : IsXmlText s) : IsXmlText (Markup.lineEnds s) := by
  induction s with
  | nil => exact h
  | cons c s ih =>
    obtain ⟨hc, hs⟩ := isXmlText_cons.1 h
    rw [Markup.lineEnds]
    split
    · split
      · exact ih hs
      · exact isXmlText_cons.2 ⟨by decide, ih hs⟩
    · exact isXmlText_cons.2 ⟨hc, ih hs⟩

end IsXmlText

/-! Pieces of character data. -/

/-- Whether a piece is made of characters that a document may hold. -/
def Piece.IsLegal : Piece → Prop
  | .literal c => isXmlChar c = true
  | .character c => isXmlChar c = true
  | .entity name => IsXmlText name

theorem isXmlChar_of_xmlChar? {n : Nat} (h : xmlChar? n = some c) : isXmlChar c = true := by
  unfold xmlChar? at h
  obtain ⟨_, h⟩ := Option.dite_none_right_eq_some.1 h
  obtain ⟨hlegal, h⟩ := Option.ite_none_right_eq_some.1 h
  cases h
  exact hlegal

/-- A reference stands for a legal piece, whatever its text. -/
theorem isLegal_of_ofReference? [NameLetters] {body : List Char} {p : Piece}
    (h : Piece.ofReference? body = some p) : p.IsLegal := by
  have hnumber : ∀ n : Option Nat, (n.bind fun n => (xmlChar? n).map Piece.character) = some p →
      p.IsLegal := by
    intro n hn
    obtain ⟨n, -, hn⟩ := Option.bind_eq_some_iff.1 hn
    obtain ⟨c, hc, rfl⟩ := Option.map_eq_some_iff.1 hn
    exact isXmlChar_of_xmlChar? hc
  unfold Piece.ofReference? at h
  split at h
  · exact hnumber _ h
  · exact hnumber _ h
  · split at h
    · rename_i hname
      cases h
      exact fun c hc => (isKept_of_isName hname c hc).1
    · cases h

theorem subset_of_splitReference? {body : List Char}
    (h : splitReference? s = some (body, rest)) : rest ⊆ s := by
  unfold splitReference? at h
  split at h
  · cases h
  · rename_i hd
    cases h
    intro c hc
    apply List.dropWhile_subset (· != ';')
    rw [hd]
    exact List.mem_cons_of_mem _ hc

theorem isLegal_piecesFrom [NameLetters] {done ps : List Piece} (h : IsXmlText s)
    (hdone : ∀ p ∈ done, p.IsLegal) (hread : piecesFrom done s = .ok ps) : ∀ p ∈ ps, p.IsLegal := by
  fun_induction piecesFrom done s with
  | case1 done =>
    cases hread
    simpa using hdone
  | case2 => cases hread
  | case3 => cases hread
  | case4 done s body rest hsplit _ piece hpiece ih =>
    apply ih _ _ hread
    · exact (isXmlText_cons.1 h).2.of_subset (subset_of_splitReference? hsplit)
    · exact List.forall_mem_cons.2 ⟨isLegal_of_ofReference? hpiece, hdone⟩
  | case5 done c s _ ih =>
    obtain ⟨hc, hs⟩ := isXmlText_cons.1 h
    exact ih hs (List.forall_mem_cons.2 ⟨hc, hdone⟩) hread

/-- The pieces of a legal text are legal. -/
theorem isLegal_pieces [NameLetters] {ps : List Piece} (h : IsXmlText s)
    (hread : pieces s = .ok ps) : ∀ p ∈ ps, p.IsLegal :=
  isLegal_piecesFrom h (by simp) hread

/-! Tokens. -/

/-- Whether the value of an attribute is made of legal pieces. -/
def RawAttribute.IsLegal (a : RawAttribute) : Prop :=
  ∀ p ∈ a.value, p.IsLegal

/-- Whether the text of a token and the values of its attributes are legal. -/
def Token.IsLegal : Token → Prop
  | .data ps => ∀ p ∈ ps, p.IsLegal
  | .cdata s => IsXmlText s
  | .opening _ attributes => ∀ a ∈ attributes, a.IsLegal
  | .single _ attributes => ∀ a ∈ attributes, a.IsLegal
  | .closing _ => True

theorem isLegal_ofText [NameLetters] {name : QName} {text : List Char} {a : RawAttribute}
    (h : IsXmlText text) (hread : RawAttribute.ofText name text = .ok a) : a.IsLegal := by
  unfold RawAttribute.ofText at hread
  split at hread
  · cases hread
  · obtain ⟨ps, hps, rfl⟩ := map_eq_ok_iff.1 hread
    exact isLegal_pieces h hps

theorem subset_of_readTagEnd? {e : TagEnd} (h : readTagEnd? s = some (e, rest)) : rest ⊆ s := by
  unfold readTagEnd? at h
  split at h
  · cases h
    exact List.subset_cons_self _ _
  · cases h
    exact List.subset_cons_of_subset _ (List.subset_cons_self _ _)
  · cases h

theorem isLegal_readAttributes [NameLetters] {done : List RawAttribute}
    {r : List RawAttribute × TagEnd} (h : IsXmlText s) (hdone : ∀ a ∈ done, a.IsLegal)
    (hread : readAttributes done s = .ok (r, rest)) : (∀ a ∈ r.1, a.IsLegal) ∧ IsXmlText rest := by
  fun_induction readAttributes done s with
  | case1 done s t e rest' hend =>
    cases hread
    constructor
    · simpa using hdone
    · exact (h.dropWhile isSpace).of_subset (subset_of_readTagEnd? hend)
  | case2 => cases hread
  | case3 => cases hread
  | case4 done s t _ _ name text rest' ha _ _ a hvalue ih =>
    obtain ⟨htext, hrest⟩ := subset_of_readAssignment? ha
    have ht : IsXmlText t := h.dropWhile isSpace
    apply ih (ht.of_subset hrest) _ hread
    exact List.forall_mem_cons.2 ⟨isLegal_ofText (ht.of_subset htext) hvalue, hdone⟩
  | case5 => cases hread

theorem isLegal_readStartTag [NameLetters] {u : Token} (h : IsXmlText s)
    (hread : readStartTag s = .ok (u, rest)) : u.IsLegal ∧ IsXmlText rest := by
  unfold readStartTag at hread
  split at hread
  · cases hread
  · rename_i name s' hname
    obtain ⟨_, _, hs'⟩ := Option.map_eq_some_iff.1 hname
    cases hs'
    split at hread
    · cases hread
    all_goals
      rename_i hattributes
      cases hread
      exact isLegal_readAttributes (h.dropWhile isNamePart) (by simp) hattributes

theorem isLegal_readEndTag [NameLetters] {u : Token} (h : IsXmlText s)
    (hread : readEndTag s = .ok (u, rest)) : u.IsLegal ∧ IsXmlText rest := by
  unfold readEndTag at hread
  simp only at hread
  split at hread
  · cases hread
  · rename_i hend
    split at hread
    · cases hread
      exact ⟨trivial, ((h.dropWhile isNamePart).dropWhile isSpace).afterChar? hend⟩
    · cases hread

theorem isXmlText_splitSection? {done body : List Char} (h : IsXmlText s) (hdone : IsXmlText done)
    (hread : splitSection? done s = some (body, rest)) : IsXmlText body ∧ IsXmlText rest := by
  induction s generalizing done with
  | nil => cases hread
  | cons c s ih =>
    obtain ⟨hc, hs⟩ := isXmlText_cons.1 h
    unfold splitSection? at hread
    split at hread
    · cases hread
      exact ⟨fun d hd => hdone d (List.mem_reverse.1 hd), hs.drop 2⟩
    · exact ih hs (isXmlText_cons.2 ⟨hc, hdone⟩) hread

theorem isLegal_readData [NameLetters] {u : Token} (h : IsXmlText s)
    (hread : readData s = .ok (u, rest)) : u.IsLegal ∧ IsXmlText rest := by
  unfold readData at hread
  simp only at hread
  split at hread
  · cases hread
  · obtain ⟨ps, hps, heq⟩ := map_eq_ok_iff.1 hread
    cases heq
    exact ⟨isLegal_pieces (h.takeWhile _) hps, h.dropWhile _⟩

theorem subset_of_afterRemark? [NameLetters] (h : afterRemark? s = some rest) : rest ⊆ s := by
  unfold afterRemark? at h
  split at h
  · rename_i s
    obtain ⟨t, ht, hr⟩ := Option.bind_eq_some_iff.1 h
    have hsub : rest ⊆ t := by
      rw [eq_of_afterChar? hr]
      exact List.subset_cons_self _ _
    intro c hc
    simp [(subset_of_afterPair ht).2 (hsub hc)]
  · rename_i s
    unfold afterInstruction? at h
    simp only at h
    split at h
    · intro c hc
      simp [List.dropWhile_subset _ ((subset_of_afterPair h).2 hc)]
    · cases h
  · cases h

/-- The token that leads a legal text is legal, and so is what follows it. -/
theorem isLegal_next [NameLetters] {u : Option Token} (h : IsXmlText s)
    (hread : Token.next s = .ok (u, rest)) : (∀ t ∈ u, t.IsLegal) ∧ IsXmlText rest := by
  have hsome : ∀ {r : Except Malformed (Token × List Char)},
      (∀ t rest, r = .ok (t, rest) → t.IsLegal ∧ IsXmlText rest) →
      (r.map fun p => (some p.1, p.2)) = .ok (u, rest) →
      (∀ t ∈ u, t.IsLegal) ∧ IsXmlText rest := by
    intro r hr hmap
    obtain ⟨⟨t, rest'⟩, hok, heq⟩ := map_eq_ok_iff.1 hmap
    cases heq
    simpa using hr t rest' hok
  unfold Token.next at hread
  split at hread
  · exact hsome (fun t rest => isLegal_readEndTag (h.drop 2)) hread
  · split at hread
    · cases hread
    · rename_i hsection
      cases hread
      obtain ⟨htext, hrest⟩ := isXmlText_splitSection? (h.drop 9) isXmlText_nil hsection
      refine ⟨fun t ht => ?_, hrest⟩
      cases ht
      exact htext
  · split at hread
    · cases hread
    · rename_i hremark
      cases hread
      exact ⟨by simp, h.of_subset (subset_of_afterRemark? hremark)⟩
  · split at hread
    · cases hread
    · rename_i hremark
      cases hread
      exact ⟨by simp, h.of_subset (subset_of_afterRemark? hremark)⟩
  · exact hsome (fun t rest => isLegal_readStartTag (h.drop 1)) hread
  · exact hsome (fun t rest => isLegal_readData h) hread

theorem isLegal_scanFrom [NameLetters] {done ts : List Token} (h : IsXmlText s)
    (hdone : ∀ t ∈ done, t.IsLegal) (hread : Token.scanFrom done s = .ok ts) :
    ∀ t ∈ ts, t.IsLegal := by
  fun_induction Token.scanFrom done s with
  | case1 done =>
    cases hread
    simpa using hdone
  | case2 => cases hread
  | case3 done s _ t rest hnext _ ih =>
    obtain ⟨ht, hrest⟩ := isLegal_next h hnext
    apply ih hrest _ hread
    intro u hu
    rcases List.mem_append.1 hu with hu | hu
    · exact ht u (Option.mem_toList.1 hu)
    · exact hdone u hu

/-- The tokens of a legal text are legal. -/
theorem isLegal_scan [NameLetters] {ts : List Token} (h : IsXmlText s)
    (hread : Token.scan s = .ok ts) : ∀ t ∈ ts, t.IsLegal :=
  isLegal_scanFrom h (by simp) hread

end LicenseDepot.Markup
