import LicenseDepot.Proofs.Markup.Height
import LicenseDepot.Proofs.Markup.LegalEvents

/-!
# Legal characters in documents

The characters of a document are checked once, after its declaration has been read. From there on
they stay legal: what a document type declares is made of its literals, in which references to
characters are resolved, and the root element is made of the tokens that follow. Main statement:
`isLegal_read`.
-/

namespace LicenseDepot.Markup

variable {s rest : List Char}

/-! The document type. -/

namespace Dtd

variable {d : Dtd}

theorem isLegal_of_empty (standalone incomplete : Bool) :
    IsLegal { standalone, incomplete } :=
  ⟨by simp, by simp⟩

/-- A document type stays legal with one more entity whose text is legal. -/
theorem IsLegal.addEntity (hd : d.IsLegal) {e : Entity} (he : e.IsLegal) (name : Name) :
    (d.addEntity name e).IsLegal := by
  unfold Dtd.addEntity
  split
  · exact hd
  · refine ⟨?_, hd.default⟩
    exact List.forall_mem_append.2 ⟨hd.entity, by simpa using he⟩

/-- It stays legal with one more rule for an attribute whose default is legal. -/
theorem IsLegal.addRule (hd : d.IsLegal) {r : AttributeRule}
    (hr : ∀ v ∈ r.default, IsXmlText v) : (d.addRule r).IsLegal := by
  unfold Dtd.addRule
  split
  · exact hd
  · refine ⟨hd.entity, ?_⟩
    exact List.forall_mem_append.2 ⟨hd.default, by simpa using hr⟩

theorem IsLegal.skipOutside (hd : d.IsLegal) : d.skipOutside.IsLegal :=
  ⟨hd.entity, hd.default⟩

end Dtd

namespace Doctype

/-- Whether the text of a token, if it is a literal, is legal. -/
def Mark.IsLegal : Mark → Prop
  | .literal s => IsXmlText s
  | _ => True

theorem isLegal_ofRun [NameLetters] (s : List Char) : (Mark.ofRun s).IsLegal := by
  unfold Mark.ofRun
  split
  · trivial
  · split
    · trivial
    · trivial

theorem isLegal_readRun? [NameLetters] {m : Mark} (h : IsXmlText s)
    (hread : readRun? s = some (m, rest)) : m.IsLegal ∧ IsXmlText rest := by
  have hdrop := h.dropWhile isNamePart
  unfold readRun? at hread
  simp only at hread
  split at hread
  · cases hread
  · split at hread
    · cases hread
      exact ⟨isLegal_ofRun _, hdrop⟩
    · split at hread
      · cases hread
      · rename_i heq
        rw [heq] at hdrop
        have hrest := (isXmlText_cons.1 hdrop).2
        split at hread
        · cases hread
          exact ⟨trivial, hrest⟩
        · cases hread
          exact ⟨trivial, hrest⟩
        · cases hread

/-- A mark of a declaration that is read from legal text is legal, and so is what follows it. There
is one case for each kind of mark. -/
theorem isLegal_read? [NameLetters] {m : Mark} (h : IsXmlText s)
    (hread : Mark.read? s = some (m, rest)) : m.IsLegal ∧ IsXmlText rest := by
  unfold Mark.read? at hread
  split at hread
  · cases hread
  · rename_i c t
    have ht := (isXmlText_cons.1 h).2
    split at hread
    · obtain ⟨⟨text, after⟩, hquoted, hread⟩ := Option.bind_eq_some_iff.1 hread
      obtain ⟨htext, hafter⟩ := subset_of_readQuoted? hquoted
      simp only at hread
      split at hread
      · cases hread
        exact ⟨h.of_subset htext, h.of_subset hafter⟩
      · cases hread
    split at hread
    · simp only at hread
      split at hread
      · cases hread
        exact ⟨trivial, ht.dropWhile isNameChar⟩
      · cases hread
    split at hread
    · split at hread
      · cases hread
        exact ⟨trivial, ht⟩
      · cases hread
    split at hread
    · cases hread
      exact ⟨trivial, ht⟩
    split at hread
    · split at hread
      · cases hread
      · split at hread
        · cases hread
          exact ⟨trivial, (isXmlText_cons.1 ht).2⟩
        · split at hread
          · cases hread
            exact ⟨trivial, ht⟩
          · cases hread
    split at hread
    · cases hread
      exact ⟨trivial, ht⟩
    split at hread
    · cases hread
      exact ⟨trivial, ht⟩
    · exact isLegal_readRun? h hread

/-- All marks of a declaration are legal, by induction on the text that is left. -/
theorem isLegal_readAll? [NameLetters] {done marks : List Mark} (h : IsXmlText s)
    (hdone : ∀ m ∈ done, m.IsLegal) (hread : Mark.readAll? done s = some (marks, rest)) :
    (∀ m ∈ marks, m.IsLegal) ∧ IsXmlText rest := by
  fun_induction Mark.readAll? done s with
  | case1 => cases hread
  | case2 done s t c rest' ht =>
    cases hread
    constructor
    · simpa using hdone
    · rw [← ht]
      exact h.dropWhile isSpace
  | case3 => cases hread
  | case4 done s t _ _ _ _ m rest' hm _ _ ih =>
    obtain ⟨hlegal, hrest⟩ := isLegal_read? (h.dropWhile isSpace) hm
    exact ih hrest (List.forall_mem_cons.2 ⟨hlegal, hdone⟩) hread

/-! Declarations. -/

/-- The text of an entity is legal: references to characters in it are resolved, and these name
legal characters only. -/
theorem isXmlText_entityText [NameLetters] {literal text : List Char} (h : IsXmlText literal)
    (hread : entityText literal = .ok text) : IsXmlText text := by
  unfold entityText at hread
  split at hread
  · cases hread
  · obtain ⟨ps, hps, rfl⟩ := map_eq_ok_iff.1 hread
    intro c hc
    obtain ⟨p, hp, hc⟩ := List.mem_flatMap.1 hc
    have hlegal := isLegal_pieces h hps p hp
    cases p with
    | literal d =>
      rw [List.mem_singleton.1 hc]
      exact hlegal
    | character d =>
      rw [List.mem_singleton.1 hc]
      exact hlegal
    | entity name =>
      have hspelled : IsXmlText ('&' :: name ++ [';']) :=
        isXmlText_append.2 ⟨isXmlText_cons.2 ⟨by decide, hlegal⟩,
          isXmlText_cons.2 ⟨by decide, isXmlText_nil⟩⟩
      exact hspelled c hc

theorem eq_of_ofMarks? {marks : List Mark} {literal : List Char}
    (h : Definition.ofMarks? marks = some (.value literal)) : marks = [.literal literal] := by
  unfold Definition.ofMarks? at h
  split at h
  · cases h
    rfl
  · split at h
    · cases h
    · split at h
      · cases h
      · cases h
    · cases h

variable {d d' : Dtd} {marks : List Mark}

/-- Declaring an entity keeps a document type legal, whichever kind of entity it is. -/
theorem isLegal_declareEntity [NameLetters] (hd : d.IsLegal) (hmarks : ∀ m ∈ marks, m.IsLegal)
    (h : declareEntity d marks = .ok d') : d'.IsLegal := by
  unfold declareEntity at h
  split at h
  · split at h
    · split at h
      · obtain ⟨-, -, rfl⟩ := map_eq_ok_iff.1 h
        exact hd
      · cases h
        exact hd
    · cases h
      exact hd
    · cases h
  · split at h
    · rename_i name rest _ literal hvalue
      split at h
      · obtain ⟨text, htext, rfl⟩ := map_eq_ok_iff.1 h
        have hliteral : IsXmlText literal := hmarks (.literal literal) (by
          rw [eq_of_ofMarks? hvalue]
          exact List.mem_cons_of_mem _ List.mem_cons_self)
        exact hd.addEntity (e := .internal text) (isXmlText_entityText hliteral htext) name
      · cases h
        exact hd
    · cases h
      split
      · exact hd.addEntity (e := .external) trivial _
      · exact hd
    · cases h
      split
      · exact hd.addEntity (e := .unparsed) trivial _
      · exact hd
    · cases h
  · cases h

/-- The default of an attribute is a literal of its list. -/
theorem eq_of_step? {state next : ListState} {m : Mark} {a : ListedAttribute}
    (h : state.step? m = some (next, some a)) : ∀ v ∈ a.default, m = .literal v := by
  unfold ListState.step? at h
  split at h
  case h_3 =>
    split at h
    · cases h
    split at h
    · cases h
    split at h
    · cases h
    · cases h
  case h_11 =>
    split at h
    · cases h
      simp
    split at h
    · cases h
    · cases h
  case h_12 =>
    cases h
    simp
  case h_13 =>
    cases h
    simp
  -- All other steps complete no attribute.
  all_goals cases h

/-- The defaults of a list of attributes are legal. -/
theorem isXmlText_listed? {state : ListState} {attributes : List ListedAttribute}
    (hmarks : ∀ m ∈ marks, m.IsLegal) (h : listed? state marks = some attributes) :
    ∀ a ∈ attributes, ∀ v ∈ a.default, IsXmlText v := by
  induction marks generalizing state attributes with
  | nil =>
    unfold listed? at h
    split at h
    · cases h
      simp
    · cases h
  | cons m marks ih =>
    obtain ⟨hm, hmarks⟩ := List.forall_mem_cons.1 hmarks
    rw [listed?] at h
    obtain ⟨⟨next, a⟩, hstep, h⟩ := Option.bind_eq_some_iff.1 h
    obtain ⟨others, hothers, rfl⟩ := Option.map_eq_some_iff.1 h
    intro x hx v hv
    rcases List.mem_append.1 hx with hx | hx
    · rw [Option.mem_toList.1 hx] at hstep
      rw [eq_of_step? hstep v hv] at hm
      exact hm
    · exact ih hmarks hothers x hx v hv

/-- A default is legal after its entities have been expanded. -/
theorem isXmlText_defaultValue [NameLetters] (hd : d.IsLegal) {words : Bool} {literal v : List Char}
    (hliteral : IsXmlText literal) (h : defaultValue d words literal = .ok v) : IsXmlText v := by
  unfold defaultValue at h
  split at h
  · cases h
  · obtain ⟨ps, hps, h⟩ := bind_eq_ok_iff.1 h
    split at h
    · cases h
    · exact isXmlText_attributeValue hd.entity (isLegal_pieces hliteral hps) h

theorem isLegal_declareAttribute [NameLetters] (hd : d.IsLegal) {element : List Char}
    {a : ListedAttribute} (ha : ∀ v ∈ a.default, IsXmlText v)
    (h : declareAttribute element d a = .ok d') : d'.IsLegal := by
  unfold declareAttribute at h
  split at h
  · cases h
    exact hd.addRule (by simp)
  · rename_i literal hdefault
    obtain ⟨v, hv, rfl⟩ := map_eq_ok_iff.1 h
    apply hd.addRule
    intro w hw
    cases hw
    exact isXmlText_defaultValue hd (ha literal hdefault) hv

/-- Declaring attributes keeps a document type legal, one attribute after another. -/
theorem isLegal_declareAttributes [NameLetters] (hd : d.IsLegal) (hmarks : ∀ m ∈ marks, m.IsLegal)
    (h : declareAttributes d marks = .ok d') : d'.IsLegal := by
  unfold declareAttributes at h
  split at h
  · cases h
  · obtain ⟨-, hmarks⟩ := List.forall_mem_cons.1 hmarks
    split at h
    · rename_i hlisted
      split at h
      · refine of_foldlM_eq_ok (fun d hd a ha d' => ?_) hd h
        exact isLegal_declareAttribute hd (isXmlText_listed? hmarks hlisted a ha)
      · cases h
        exact hd
    · cases h

/-- A declaration made of legal tokens keeps a document type legal. -/
theorem isLegal_declare [NameLetters] (hd : d.IsLegal) {word : List Char}
    (hmarks : ∀ m ∈ marks, m.IsLegal) (h : declare d word marks = .ok d') : d'.IsLegal := by
  unfold declare at h
  split at h
  · exact isLegal_declareEntity hd hmarks h
  split at h
  · exact isLegal_declareAttributes hd hmarks h
  split at h
  · split at h
    · cases h
      exact hd
    · cases h
  split at h
  · split at h
    · cases h
      exact hd
    · cases h
  · cases h

/-! The declarations inside a document type. -/

/-- Whether the tokens of a step and what follows it are legal. -/
def SubsetStep.IsLegal : SubsetStep → Prop
  | .finished rest => IsXmlText rest
  | .outside rest => IsXmlText rest
  | .declaration _ marks rest => (∀ m ∈ marks, m.IsLegal) ∧ IsXmlText rest
  | .fault => True

theorem isLegal_readDeclaration? [NameLetters] {r : List Char × List Mark} (h : IsXmlText s)
    (hread : readDeclaration? s = some (r, rest)) : (∀ m ∈ r.2, m.IsLegal) ∧ IsXmlText rest := by
  unfold readDeclaration? at hread
  simp only at hread
  split at hread
  · obtain ⟨⟨marks, t⟩, hmarks, hread⟩ := Option.bind_eq_some_iff.1 hread
    obtain ⟨u, hu, hread⟩ := Option.map_eq_some_iff.1 hread
    obtain ⟨hlegal, ht⟩ := isLegal_readAll? (h.dropWhile _) (by simp) hmarks
    cases hread
    exact ⟨hlegal, ht.afterChar? hu⟩
  · cases hread

theorem isXmlText_afterOutside? [NameLetters] (h : IsXmlText s)
    (hread : afterOutside? s = some rest) : IsXmlText rest := by
  unfold afterOutside? at hread
  split at hread
  · exact (h.dropWhile isNameChar).afterChar? hread
  · cases hread

theorem isLegal_of [NameLetters] (h : IsXmlText s) : (SubsetStep.of s).IsLegal := by
  unfold SubsetStep.of
  split
  · exact h.drop 1
  · split
    · rename_i hrest
      exact isXmlText_afterOutside? (h.drop 1) hrest
    · trivial
  · split
    · rename_i hrest
      exact isLegal_readDeclaration? (h.drop 2) hrest
    · trivial
  · trivial

end Doctype

theorem isXmlText_skipRemarks [NameLetters] (h : IsXmlText s) : IsXmlText (skipRemarks s) := by
  fun_induction skipRemarks s with
  | case1 s t rest hremark _ _ ih =>
    apply ih
    exact (h.dropWhile isSpace).of_subset (subset_of_afterRemark? hremark)
  | case2 s t => exact h.dropWhile isSpace

namespace Doctype

variable {d d' : Dtd}

/-- Reading the declarations of a document type keeps it legal, by induction on the text that is
left. -/
theorem isLegal_readSubset [NameLetters] (hd : d.IsLegal) (h : IsXmlText s)
    (hread : readSubset d s = .ok (d', rest)) : d'.IsLegal ∧ IsXmlText rest := by
  fun_induction readSubset d s with
  | case1 d s hle rest' hstep =>
    have hlegal := isLegal_of (isXmlText_skipRemarks h)
    rw [hstep] at hlegal
    cases hread
    exact ⟨hd, hlegal⟩
  | case2 d s hle rest' hstep hlt ih =>
    have hlegal := isLegal_of (isXmlText_skipRemarks h)
    rw [hstep] at hlegal
    exact ih hd.skipOutside hlegal hread
  | case3 => cases hread
  | case4 d s hle word marks rest' hstep hlt d' hdeclare ih =>
    have hlegal := isLegal_of (isXmlText_skipRemarks h)
    rw [hstep] at hlegal
    exact ih (isLegal_declare hd hlegal.1 hdeclare) hlegal.2 hread
  | case5 => cases hread

/-- The document type of a legal text is legal. -/
theorem isLegal_read [NameLetters] {standalone : Bool} (h : IsXmlText s)
    (hread : Doctype.read standalone s = .ok (d, rest)) : d.IsLegal ∧ IsXmlText rest := by
  unfold Doctype.read at hread
  split at hread
  · rename_i hmarks
    split at hmarks
    · obtain ⟨-, hafter⟩ := isLegal_readAll? h (by simp) hmarks
      split at hread
      · cases hread
        exact ⟨Dtd.isLegal_of_empty _ _, hafter.drop 1⟩
      · obtain ⟨⟨d₁, t⟩, hsubset, hread⟩ := bind_eq_ok_iff.1 hread
        obtain ⟨hd, ht⟩ := isLegal_readSubset (Dtd.isLegal_of_empty _ _) (hafter.drop 1) hsubset
        simp only at hread
        split at hread
        · rename_i hend
          cases hread
          exact ⟨hd, (ht.dropWhile isSpace).afterChar? hend⟩
        · cases hread
      · cases hread
    · cases hmarks
  · cases hread

end Doctype

/-! The document. -/

/-- The document type that leads a legal text is legal, and so is what follows it. -/
theorem isLegal_readDoctype [NameLetters] {standalone : Bool} {d : Dtd} (h : IsXmlText s)
    (hread : readDoctype standalone s = .ok (d, rest)) : d.IsLegal ∧ IsXmlText rest := by
  unfold readDoctype at hread
  split at hread
  · obtain ⟨⟨d₁, t⟩, hdoctype, heq⟩ := map_eq_ok_iff.1 hread
    obtain ⟨hd, ht⟩ := Doctype.isLegal_read (h.drop _) hdoctype
    cases heq
    exact ⟨hd, isXmlText_skipRemarks ht⟩
  · cases hread
    exact ⟨Dtd.isLegal_of_empty standalone false, h⟩

/-- The root element of legal characters is legal. -/
theorem isLegal_readBody [NameLetters] {standalone : Bool} {root : Element} (h : IsXmlText s)
    (hread : readBody standalone s = .ok root) : root.IsLegal := by
  unfold readBody at hread
  obtain ⟨⟨d, body⟩, hdoctype, hread⟩ := bind_eq_ok_iff.1 hread
  obtain ⟨tokens, htokens, hread⟩ := bind_eq_ok_iff.1 hread
  obtain ⟨r, hdivide, hread⟩ := bind_eq_ok_iff.1 hread
  obtain ⟨-, rfl⟩ := divideRoot_eq_ok_iff.1 hdivide
  obtain ⟨hd, hbody⟩ := isLegal_readDoctype (isXmlText_skipRemarks h) hdoctype
  have hfirst := splitRoot_prefix 0 [] tokens
  have hlegal : ∀ t ∈ (splitRoot 0 [] tokens).1, t.IsLegal :=
    fun t ht => isLegal_scan hbody htokens t (hfirst.subset ht)
  simp only at hread
  split at hread
  · cases hread
  · obtain ⟨events, hevents, hread⟩ := bind_eq_ok_iff.1 hread
    exact isLegal_ofEvents (isLegal_ofTokens hd hlegal hevents) hread

/-- A root element is read only where its tag leads, whatever the document type says of references
that might stand there. -/
theorem exists_beginsElement_of_readBody [NameLetters] {standalone : Bool} {root : Element}
    (h : readBody standalone s = .ok root) :
    ∃ d body t ts, readDoctype standalone (skipRemarks s) = .ok (d, body) ∧
      Token.scan body = .ok (t :: ts) ∧ t.beginsElement = true := by
  unfold readBody at h
  obtain ⟨⟨d, body⟩, hdoctype, h⟩ := bind_eq_ok_iff.1 h
  obtain ⟨tokens, hscan, h⟩ := bind_eq_ok_iff.1 h
  obtain ⟨r, hdivide, -⟩ := bind_eq_ok_iff.1 h
  obtain ⟨hlead, -⟩ := divideRoot_eq_ok_iff.1 hdivide
  cases tokens with
  | nil => cases hlead
  | cons t ts => exact ⟨d, body, t, ts, hdoctype, hscan, hlead⟩

/-- An entity may stand inside of the root element, but not for it, and no section without
characters stands before it. -/
example :
    (readBody false "<!DOCTYPE a [<!ENTITY e '<b/>'>]><a>&e;</a>".toList).isOk = true ∧
      (readBody false "<!DOCTYPE a [<!ENTITY e '<a/>'>]>&e;".toList).isOk = false ∧
      (readBody false "<!DOCTYPE a [<!ENTITY e ''>]>&e;<a/>".toList).isOk = false ∧
      (readBody false "<![CDATA[]]><a/>".toList).isOk = false := by
  decide +kernel

/-- However the characters of a document are come by, they are checked in the end. -/
theorem isXmlText_readCharacters {text : List Char} {declaration : Declaration}
    (h : readCharacters text = .ok (declaration, s)) : IsXmlText s := by
  have hcheck : ∀ (d : Declaration) (rest : List Char),
      (if rest.all isXmlChar then .ok (d, lineEnds rest)
        else .error (DocumentFault.malformed .character)) = Except.ok (declaration, s) →
      IsXmlText s := by
    intro d rest h
    split at h
    · rename_i hall
      cases h
      exact IsXmlText.lineEnds (List.all_eq_true.1 hall)
    · cases h
  unfold readCharacters at h
  simp only at h
  split at h
  · split at h
    · cases h
    · obtain ⟨⟨d, rest⟩, -, h⟩ := bind_eq_ok_iff.1 h
      obtain ⟨-, -, h⟩ := bind_eq_ok_iff.1 h
      exact hcheck d rest h
  · obtain ⟨⟨d, rest⟩, -, h⟩ := bind_eq_ok_iff.1 h
    simp only at h
    split at h
    · exact hcheck d rest h
    · obtain ⟨reread, -, h⟩ := bind_eq_ok_iff.1 h
      exact hcheck d reread h

/-- The root element of a document is legal, whatever its encoding and its document type. -/
theorem isLegal_read {text : List Char} {root : Element} (h : Element.read text = .ok root) :
    root.IsLegal := by
  unfold Element.read at h
  obtain ⟨⟨d, s⟩, hs, h⟩ := bind_eq_ok_iff.1 h
  exact @isLegal_readBody _ d.letters _ _ (isXmlText_readCharacters hs) (mapError_eq_ok_iff.1 h)

end LicenseDepot.Markup
