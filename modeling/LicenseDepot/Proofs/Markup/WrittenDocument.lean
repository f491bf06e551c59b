import LicenseDepot.LicenseDocument.Writer
import LicenseDepot.Proofs.Markup.Layout

/-!
# Reading written documents

A written document is a declaration and an element. It is read as that element (`read_render`), and
so is one with layout between the elements in it (`read_of_isElementRow`). A document that is cut
off is not well formed wherever the cut is, as long as enough of it is left to tell that it is a
document (`read_of_isPrefix`).
-/

namespace LicenseDepot.Markup

open LicenseDocument (declaration)
open Text

/-! The declaration. -/

/-- What the declaration says between its marks. -/
def declarationBody : List Char :=
  " version=\"1.0\" encoding=\"UTF-8\"".toList

theorem declaration_eq :
    declaration = Declaration.openingMark ++ (declarationBody ++ ['?', '>', '\n']) := by
  decide

theorem leads_openingMark {c : Char} (h : isNameChar c = false) (s : List Char) :
    Declaration.leads (Declaration.openingMark ++ c :: s) = true := by
  have hmark : Declaration.openingMark = ['<', '?', 'x', 'm', 'l'] := by decide
  rw [Declaration.leads, hmark]
  simp [h]

theorem split?_append {body : List Char} (h : ∀ c ∈ body, c ≠ '?') (done s : List Char) :
    Declaration.split? done (body ++ '?' :: '>' :: s) = some (done.reverse ++ body, s) := by
  induction body generalizing done with
  | nil => simp [Declaration.split?]
  | cons c body ih =>
    have hc : ¬ (c = '?' ∧ (body ++ '?' :: '>' :: s).head? = some '>') :=
      fun hboth => h c List.mem_cons_self hboth.1
    rw [List.cons_append, Declaration.split?, if_neg hc,
      ih fun d hd => h d (List.mem_cons_of_mem c hd)]
    simp

theorem mem_of_split? {done s : List Char} {r : List Char × List Char}
    (h : Declaration.split? done s = some r) : '>' ∈ s := by
  induction s generalizing done with
  | nil => cases h
  | cons c s ih =>
    rw [Declaration.split?] at h
    split at h
    · rename_i hpair
      exact List.mem_cons_of_mem c (List.mem_of_head? hpair.2)
    · exact List.mem_cons_of_mem c (ih h)

theorem drop_openingMark (s : List Char) : (Declaration.openingMark ++ s).drop 5 = s := by
  have hlength : Declaration.openingMark.length = 5 := by decide
  rw [← hlength, List.drop_left]

theorem exists_declarationBody : ∃ body, declarationBody = ' ' :: body := by
  exact ⟨_, rfl⟩

/-- The declaration is read whatever follows its last bracket. -/
theorem read_declarationBody (s : List Char) :
    Declaration.read (Declaration.openingMark ++ (declarationBody ++ '?' :: '>' :: s))
      = .ok (⟨some "UTF-8".toList, false⟩, s) := by
  obtain ⟨body, hbody⟩ := exists_declarationBody
  have hparts : (Declaration.readParts? 3 declarationBody).bind Declaration.ofParts?
      = some ⟨some "UTF-8".toList, false⟩ := by
    decide +kernel
  have hleads : Declaration.leads
      (Declaration.openingMark ++ (declarationBody ++ '?' :: '>' :: s)) = true := by
    rw [hbody]
    exact leads_openingMark (by decide) _
  rw [Declaration.read, hleads, drop_openingMark, split?_append (forall_mem_of_all (by decide))]
  simp only [if_true, List.reverse_nil, List.nil_append, hparts]

/-- A declaration that is cut off before its last bracket is none. -/
theorem read_of_prefix_declaration {b : List Char} (hb : b <+: declarationBody ++ ['?'])
    (hnil : b ≠ []) :
    Declaration.read (Declaration.openingMark ++ b) = .error .declaration := by
  obtain ⟨body, hbody⟩ := exists_declarationBody
  obtain ⟨c, t, rfl⟩ := List.exists_cons_of_ne_nil hnil
  have hplain : '>' ∉ declarationBody ++ ['?'] := by decide
  have hsplit : Declaration.split? [] (c :: t) = none := by
    cases hs : Declaration.split? [] (c :: t) with
    | none => rfl
    | some r => exact absurd (hb.subset (mem_of_split? hs)) hplain
  have hc : c = ' ' := by
    rw [hbody, List.cons_append] at hb
    exact (List.cons_prefix_cons.1 hb).1
  have hleads : Declaration.leads (Declaration.openingMark ++ c :: t) = true := by
    rw [hc]
    exact leads_openingMark (by decide) t
  rw [Declaration.read, hleads, drop_openingMark, hsplit]
  rfl

/-! The characters of a document. -/

theorem lineEnds_eq_self {s : List Char} (h : ∀ c ∈ s, c ≠ '\r') : lineEnds s = s := by
  induction s with
  | nil => rfl
  | cons c s ih =>
    rw [lineEnds, if_neg (h c List.mem_cons_self), ih fun d hd => h d (List.mem_cons_of_mem c hd)]

theorem openingMark_eq : Declaration.openingMark = ['<', '?', 'x', 'm', 'l'] := by
  decide

theorem byteOrder?_openingMark (s : List Char) :
    byteOrder? (Utf8.encode (Declaration.openingMark ++ s)) = none := by
  have hbytes : Utf8.encode Declaration.openingMark = [0x3C, 0x3F, 0x78, 0x6D, 0x6C] := by decide
  rw [Utf8.encode_append, hbytes]
  rfl

theorem dropMarkOfOrder_openingMark (s : List Char) :
    dropMarkOfOrder (Declaration.openingMark ++ s) = Declaration.openingMark ++ s := by
  rw [openingMark_eq, List.cons_append, dropMarkOfOrder, if_neg (by decide)]

theorem reread_utf8 (s : List Char) : reread "UTF-8".toList s = .ok s := by
  have hname : BuiltIn.ofName? "UTF-8".toList = some .utf8 := by decide +kernel
  rw [reread, hname]

/-- A text that begins like a declaration is read in the encoding that it is in. -/
theorem readCharacters_openingMark {s rest : List Char} {standalone : Bool}
    (hread : Declaration.read (Declaration.openingMark ++ s)
      = .ok (⟨some "UTF-8".toList, standalone⟩, rest)) (hkept : ∀ c ∈ rest, IsKept c) :
    readCharacters (Declaration.openingMark ++ s)
      = .ok (⟨some "UTF-8".toList, standalone⟩, rest) := by
  have hall : rest.all isXmlChar = true := by
    rw [List.all_eq_true]
    exact fun c hc => (hkept c hc).1
  have hends : lineEnds rest = rest := lineEnds_eq_self fun c hc => (hkept c hc).2
  simp only [readCharacters, byteOrder?_openingMark, dropMarkOfOrder_openingMark, hread,
    mapError_ok, bind, Except.bind, pure, Except.pure, reread_utf8, hall, hends, if_true]

theorem readCharacters_openingMark_error {s : List Char} {fault : Malformed}
    (hread : Declaration.read (Declaration.openingMark ++ s) = .error fault) :
    readCharacters (Declaration.openingMark ++ s) = .error (.malformed fault) := by
  simp only [readCharacters, byteOrder?_openingMark, dropMarkOfOrder_openingMark, hread]
  rfl

/-! The element after the declaration. -/

/-- How an element begins, even if it is cut off: with a bracket, and then no mark of a remark or of
a document type. -/
def BeginsElement (s : List Char) : Prop :=
  s = [] ∨ s = ['<'] ∨ ∃ c t, s = '<' :: c :: t ∧ c ≠ '!' ∧ c ≠ '?'

theorem afterRemark?_of_beginsElement {s : List Char} (h : BeginsElement s) :
    afterRemark? s = none := by
  rcases h with rfl | rfl | ⟨c, t, rfl, hbang, hquestion⟩
  · rfl
  · rfl
  · unfold afterRemark?
    split
    · rename_i heq
      exact absurd (List.cons.inj (List.cons.inj heq).2).1 hbang
    · rename_i heq
      exact absurd (List.cons.inj (List.cons.inj heq).2).1 hquestion
    · rfl

theorem dropWhile_isSpace_of_beginsElement {s : List Char} (h : BeginsElement s) :
    s.dropWhile isSpace = s := by
  rcases h with rfl | rfl | ⟨c, t, rfl, -⟩
  · rfl
  · rfl
  · rfl

theorem skipRemarks_of_dropWhile {s t : List Char} (h : s.dropWhile isSpace = t)
    (ht : BeginsElement t) : skipRemarks s = t := by
  rw [skipRemarks]
  simp only [h]
  split
  · rename_i hsome
    rw [h, afterRemark?_of_beginsElement ht] at hsome
    cases hsome
  · rfl

theorem readDoctype_of_beginsElement (standalone : Bool) {s : List Char} (h : BeginsElement s) :
    readDoctype standalone s = .ok ({ standalone }, s) := by
  have hmark : doctypeMark = '<' :: '!' :: "DOCTYPE".toList := by decide
  have hno : doctypeMark.isPrefixOf s = false := by
    rw [hmark]
    rcases h with rfl | rfl | ⟨c, t, rfl, hbang, -⟩
    · rfl
    · rfl
    · simp [List.isPrefixOf, hbang.symm]
  rw [readDoctype, hno]
  rfl

theorem isBare_default (standalone : Bool) : ({ standalone } : Dtd).IsBare :=
  ⟨rfl, rfl⟩

/-- The body of a document without a document type is read as the element that its tokens make. -/
theorem readBody_of_beginsElement (standalone : Bool) {s t : List Char}
    (hs : s.dropWhile isSpace = t) (ht : BeginsElement t) {ts : List Token}
    (hscan : Token.scan t = .ok ts) :
    readBody standalone s = (divideRoot ts).bind fun (root, rest) =>
      if rest.all Token.isLayout = false then .error .nesting
      else (Event.ofTokens { standalone } (Utf8.encode s).length root).bind Element.ofEvents := by
  rw [readBody, skipRemarks_of_dropWhile hs ht, readDoctype_of_beginsElement standalone ht]
  change Except.bind (Token.scan t) _ = _
  rw [hscan]
  change Except.bind (divideRoot ts) _ = _
  cases divideRoot ts with
  | error fault => rfl
  | ok r =>
    change (if _ then _ else _) = (if _ then _ else _)
    split
    · rfl
    · rfl

/-! Written documents, whole and cut off. -/

variable {e : Element}

theorem exists_render (h : e.IsWritable) : ∃ c s, e.render = '<' :: c :: s ∧ c ≠ '!' ∧ c ≠ '?' := by
  obtain ⟨c, name, hname, -, -, -, -, hbang, hquestion⟩ := exists_of_isName h.tag.name
  by_cases hempty : e.text = [] ∧ e.children = []
  · rw [Element.render_of_empty hempty.1 hempty.2, Fragment.chars, hname]
    exact ⟨c, _, rfl, hbang, hquestion⟩
  · rw [Element.render_of_not_empty hempty, Fragment.chars, hname]
    exact ⟨c, _, rfl, hbang, hquestion⟩

theorem beginsElement_of_isPrefix (h : e.IsWritable) {b : List Char} (hb : b <+: e.render) :
    BeginsElement b := by
  obtain ⟨c, s, hs, hbang, hquestion⟩ := exists_render h
  rw [hs] at hb
  cases b with
  | nil => exact .inl rfl
  | cons d b =>
    obtain ⟨rfl, -⟩ := List.cons_prefix_cons.1 hb
    cases b with
    | nil => exact .inr (.inl rfl)
    | cons d b =>
      obtain ⟨rfl, -⟩ := List.cons_prefix_cons.1 (List.cons_prefix_cons.1 hb).2
      exact .inr (.inr ⟨d, b, rfl, hbang, hquestion⟩)

theorem read_of_rest {rest : List Char} (hkept : ∀ c ∈ rest, IsKept c) :
    Element.read (Declaration.openingMark ++ (declarationBody ++ '?' :: '>' :: rest))
      = (readBody false rest).mapError .malformed := by
  rw [Element.read, readCharacters_openingMark (read_declarationBody rest) hkept]
  rfl

/-- A document is read as the element that the row of fragments after its declaration is. -/
theorem read_of_isElementRow {fs : List Fragment} (h : IsElementRow fs e)
    (hbegins : BeginsElement (fs.flatMap Fragment.chars)) :
    Element.read (declaration ++ fs.flatMap Fragment.chars) = .ok e := by
  have htext : declaration ++ fs.flatMap Fragment.chars = Declaration.openingMark
      ++ (declarationBody ++ '?' :: '>' :: '\n' :: fs.flatMap Fragment.chars) := by
    rw [declaration_eq]
    simp
  have hkept : ∀ c ∈ '\n' :: fs.flatMap Fragment.chars, IsKept c := by
    intro c hc
    rcases List.mem_cons.1 hc with rfl | hc
    · decide
    · exact h.kept c hc
  have hspace : ('\n' :: fs.flatMap Fragment.chars).dropWhile isSpace
      = fs.flatMap Fragment.chars := by
    rw [List.dropWhile_cons_of_pos (by decide), dropWhile_isSpace_of_beginsElement hbegins]
  have hbody : readBody false ('\n' :: fs.flatMap Fragment.chars) = .ok e := by
    rw [readBody_of_beginsElement false hspace hbegins (scan_fragments h.row), h.divideRoot_eq]
    exact h.ofEvents (isBare_default false) _
  rw [htext, read_of_rest hkept, hbody]
  rfl

/-- A written document is read as the element that was written. -/
theorem read_render (h : e.IsWritable) : Element.read (declaration ++ e.render) = .ok e := by
  have hbegins := beginsElement_of_isPrefix h (List.prefix_refl e.render)
  rw [Element.render_eq_flatMap] at hbegins ⊢
  exact read_of_isElementRow (isElementRow_fragments h) hbegins

/-- An element that is cut off is none, after a line end or not. -/
theorem readBody_ne_ok_of_isPrefix (h : e.IsWritable) {s t : List Char}
    (hs : s.dropWhile isSpace = t) (ht : t <+: e.render) (hne : t ≠ e.render) (x : Element) :
    readBody false s ≠ .ok x := by
  intro hread
  have hbegins := beginsElement_of_isPrefix h ht
  cases hscan : Token.scan t with
  | error fault =>
    rw [readBody, skipRemarks_of_dropWhile hs hbegins,
      readDoctype_of_beginsElement false hbegins] at hread
    change Except.bind (Token.scan t) _ = _ at hread
    rw [hscan] at hread
    cases hread
  | ok ts =>
    rw [readBody_of_beginsElement false hs hbegins hscan] at hread
    obtain ⟨r, hdivide, hread⟩ := bind_eq_ok_iff.1 hread
    obtain ⟨-, rfl⟩ := divideRoot_eq_ok_iff.1 hdivide
    simp only at hread
    split at hread
    · cases hread
    rw [Element.render_eq_flatMap] at ht hne
    obtain ⟨before, extra, hbefore, hstrict, rfl, hextra⟩ :=
      scan_of_isPrefix (Element.isRow_fragments h) ht hne hscan
    have hlength : (before.map Fragment.token).length < e.tokens.length := by
      rw [Element.tokens, List.length_map, List.length_map]
      exact lt_of_le_of_ne hbefore.length_le fun heq => hstrict (hbefore.eq_of_length heq)
    have htokens : before.map Fragment.token <+: e.tokens := hbefore.map Fragment.token
    -- Only the first tokens count as the root element, and these are cut off all the more.
    have hroot := splitRoot_prefix 0 [] (before.map Fragment.token ++ extra)
    rw [List.reverse_nil, List.nil_append] at hroot
    rcases List.prefix_or_prefix_of_prefix hroot (List.prefix_append _ extra) with hfront | ⟨q, hq⟩
    · have hne : (splitRoot 0 [] (before.map Fragment.token ++ extra)).1 ≠ e.tokens := by
        intro heq
        have := hfront.length_le
        rw [heq] at this
        omega
      rw [← List.append_nil (splitRoot 0 [] _).1] at hread
      exact ofEvents_ne_ok_of_isPrefix (isBare_default false) _ (hfront.trans htokens) hne (by simp)
        hread
    · rw [← hq] at hroot hread
      have hdata : ∀ t ∈ q, t.isData = true := fun t ht =>
        hextra t (((List.prefix_append_right_inj _).1 hroot).subset ht)
      exact ofEvents_ne_ok_of_isPrefix (isBare_default false) _ htokens
        (fun heq => by rw [heq] at hlength; omega) hdata hread

/-- A document that is cut off in its element, or right before the end of the line that leads it, is
not well formed. -/
theorem read_of_isPrefix_rest (h : e.IsWritable) {rest : List Char}
    (hrest : rest <+: '\n' :: e.render) (hne : rest ≠ '\n' :: e.render) :
    ∃ fault, Element.read (Declaration.openingMark ++ (declarationBody ++ '?' :: '>' :: rest))
      = .error (.malformed fault) := by
  have hkept : ∀ c ∈ rest, IsKept c := by
    intro c hc
    rcases List.mem_cons.1 (hrest.subset hc) with rfl | hc
    · decide
    · exact Element.isKept_render h c hc
  obtain ⟨t, hspace, ht, htne⟩ :
      ∃ t, rest.dropWhile isSpace = t ∧ t <+: e.render ∧ t ≠ e.render := by
    cases rest with
    | nil =>
      refine ⟨[], rfl, List.nil_prefix, fun heq => ?_⟩
      obtain ⟨c, s, hs, -⟩ := exists_render h
      rw [hs] at heq
      cases heq
    | cons d t =>
      obtain ⟨rfl, ht⟩ := List.cons_prefix_cons.1 hrest
      refine ⟨t, ?_, ht, fun heq => hne (by rw [heq])⟩
      rw [List.dropWhile_cons_of_pos (by decide)]
      exact dropWhile_isSpace_of_beginsElement (beginsElement_of_isPrefix h ht)
  rw [read_of_rest hkept]
  cases hbody : readBody false rest with
  | error fault => exact ⟨fault, rfl⟩
  | ok x => exact absurd hbody (readBody_ne_ok_of_isPrefix h hspace ht htne x)

/-- A document that is cut off is not well formed, if its first six characters are left. -/
theorem read_of_isPrefix (h : e.IsWritable) {b : List Char} (hb : b <+: declaration ++ e.render)
    (hne : b ≠ declaration ++ e.render) (hlength : 6 ≤ b.length) :
    ∃ fault, Element.read b = .error (.malformed fault) := by
  have htext : declaration ++ e.render = Declaration.openingMark
      ++ ((declarationBody ++ ['?']) ++ '>' :: '\n' :: e.render) := by
    rw [declaration_eq]
    simp
  rw [htext] at hb hne
  obtain ⟨c, rfl⟩ : Declaration.openingMark <+: b := by
    apply List.prefix_of_prefix_length_le (List.prefix_append _ _) hb
    rw [openingMark_eq]
    exact le_trans (by decide) hlength
  have hc := (List.prefix_append_right_inj _).1 hb
  have hnil : c ≠ [] := by
    rintro rfl
    rw [openingMark_eq] at hlength
    exact absurd hlength (by decide)
  rcases List.prefix_or_prefix_of_prefix hc (List.prefix_append _ _) with hfront | ⟨r, rfl⟩
  · -- The cut is inside of the declaration.
    refine ⟨.declaration, ?_⟩
    rw [Element.read, readCharacters_openingMark_error (read_of_prefix_declaration hfront hnil)]
    rfl
  have hr := (List.prefix_append_right_inj _).1 hc
  cases r with
  | nil =>
    refine ⟨.declaration, ?_⟩
    rw [List.append_nil, Element.read, readCharacters_openingMark_error
      (read_of_prefix_declaration (List.prefix_refl _) (by simp))]
    rfl
  | cons d rest =>
    obtain ⟨rfl, hrest⟩ := List.cons_prefix_cons.1 hr
    have hcut := read_of_isPrefix_rest h hrest fun heq => hne (by rw [heq])
    rwa [List.append_assoc]

end LicenseDepot.Markup
