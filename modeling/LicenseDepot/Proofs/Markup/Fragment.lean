import LicenseDepot.Proofs.Markup.Escape
import Mathlib.Data.List.Chain

/-!
# Fragments of a written document

A written document is a row of fragments: tags, and runs of text between them. A fragment has the
characters it is written with and the token it is read as. A row of whole fragments is taken off the
front of a text token by token (`scanFrom_fragments`), so it is scanned as its tokens
(`scan_fragments`).
-/

namespace LicenseDepot.Markup

/-- A part of a written document. -/
inductive Fragment
  /-- The tag that begins an element. -/
  | opening (name : Name) (attributes : List (ExpandedName × List Char))
  /-- The tag of an element without content. -/
  | single (name : Name) (attributes : List (ExpandedName × List Char))
  /-- A run of text. -/
  | text (s : List Char)
  /-- The tag that ends an element. -/
  | closing (name : Name)

/-- An attribute as it is read from a tag. -/
def rawAttribute (a : ExpandedName × List Char) : RawAttribute :=
  ⟨⟨none, a.1.base⟩, a.2.map attributePiece⟩

namespace Fragment

/-- The characters that a fragment is written with. -/
def chars : Fragment → List Char
  | .opening name attributes => '<' :: (name ++ (attributes.flatMap renderAttribute ++ ['>']))
  | .single name attributes => '<' :: (name ++ (attributes.flatMap renderAttribute ++ " />".toList))
  | .text s => escape s
  | .closing name => '<' :: '/' :: (name ++ ['>'])

/-- The token that a fragment is read as. -/
def token : Fragment → Token
  | .opening name attributes => .opening ⟨none, name⟩ (attributes.map rawAttribute)
  | .single name attributes => .single ⟨none, name⟩ (attributes.map rawAttribute)
  | .text s => .data (s.map textPiece)
  | .closing name => .closing name

/-- Whether a fragment is a run of text. -/
def isText : Fragment → Bool
  | .text _ => true
  | _ => false

/-- Whether a fragment is one that can be read back: names are names, and text is not empty. -/
def IsValid : Fragment → Prop
  | .opening name attributes | .single name attributes =>
    isName name = true ∧ ∀ a ∈ attributes, isName a.1.base = true
  | .text s => s ≠ []
  | .closing name => isName name = true

end Fragment

/-- Rows of fragments that can be told apart: no two runs of text meet. -/
structure IsRow (fs : List Fragment) : Prop where
  valid : ∀ f ∈ fs, f.IsValid
  separated : fs.IsChain fun f g => f.isText = true → g.isText = false

/-! Reading tags. -/

theorem isNamePart_of_isName {name : Name} (h : isName name = true) :
    ∀ c ∈ name, isNamePart c = true := by
  cases name with
  | nil => cases h
  | cons c s =>
    simp only [isName, Bool.and_eq_true, List.all_eq_true] at h
    intro d hd
    rcases List.mem_cons.1 hd with rfl | hd
    · rw [isNamePart, isNameChar_of_isNameStart h.1, Bool.true_or]
    · rw [isNamePart, h.2 d hd, Bool.true_or]

/-- A name begins with a character that begins names, and so with none of the marks of markup. -/
theorem exists_of_isName {name : Name} (h : isName name = true) :
    ∃ c s, name = c :: s ∧ isNameStart c = true ∧ isSpace c = false ∧ c ≠ '>' ∧ c ≠ '/' ∧ c ≠ '!'
      ∧ c ≠ '?' := by
  cases name with
  | nil => cases h
  | cons c s =>
    simp only [isName, Bool.and_eq_true] at h
    have hne : ∀ d, isNameStart d = false → c ≠ d := by
      rintro d hd rfl
      rw [hd] at h
      exact Bool.false_ne_true h.1
    refine ⟨c, s, rfl, h.1, ?_, hne _ (by decide), hne _ (by decide), hne _ (by decide),
      hne _ (by decide)⟩
    simp only [isSpace, Bool.or_eq_false_iff, beq_eq_false_iff_ne]
    exact ⟨⟨⟨hne _ (by decide), hne _ (by decide)⟩, hne _ (by decide)⟩, hne _ (by decide)⟩

theorem split_isName {name : Name} (h : isName name = true) {d : Char} (hd : isNamePart d = false)
    (rest : List Char) :
    (name ++ d :: rest).takeWhile isNamePart = name ∧
      (name ++ d :: rest).dropWhile isNamePart = d :: rest := by
  have hpart := isNamePart_of_isName h
  constructor
  · rw [List.takeWhile_append_of_pos hpart, List.takeWhile_cons_of_neg (by simp [hd]),
      List.append_nil]
  · rw [List.dropWhile_append_of_pos hpart, List.dropWhile_cons_of_neg (by simp [hd])]

theorem readQName?_append {name : Name} (h : isName name = true) {d : Char}
    (hd : isNamePart d = false) (rest : List Char) :
    readQName? (name ++ d :: rest) = some (⟨none, name⟩, d :: rest) := by
  obtain ⟨htake, hdrop⟩ := split_isName h hd rest
  rw [readQName?, htake, hdrop, QName.ofChars?, if_pos h]
  rfl

theorem splitQuoted?_append {quote : Char} {body rest : List Char} (h : ∀ c ∈ body, c ≠ quote) :
    splitQuoted? quote (body ++ quote :: rest) = some (body, rest) := by
  have hbody : ∀ c ∈ body, (c != quote) = true := by simpa using h
  have hdrop : (body ++ quote :: rest).dropWhile (· != quote) = quote :: rest := by
    rw [List.dropWhile_append_of_pos hbody, List.dropWhile_cons_of_neg (by simp)]
  have htake : (body ++ quote :: rest).takeWhile (· != quote) = body := by
    rw [List.takeWhile_append_of_pos hbody, List.takeWhile_cons_of_neg (by simp), List.append_nil]
  rw [splitQuoted?, hdrop, htake]

theorem readAssignment?_append {name : Name} (h : isName name = true) (value rest : List Char) :
    readAssignment? (name ++ '=' :: '"' :: (escapeAttribute value ++ '"' :: rest))
      = some ((⟨none, name⟩, escapeAttribute value), rest) := by
  have hquote : readQuoted? ('"' :: (escapeAttribute value ++ '"' :: rest))
      = some (escapeAttribute value, rest) := by
    rw [readQuoted?, if_pos (.inl rfl)]
    exact splitQuoted?_append fun c hc => (ne_of_mem_escapeAttribute hc).2.2
  rw [readAssignment?, readQName?_append h (by decide)]
  simp only [Option.bind_some]
  rw [List.dropWhile_cons_of_neg (by decide), afterChar?, if_pos rfl]
  simp only [Option.bind_some]
  rw [List.dropWhile_cons_of_neg (by decide), hquote]
  rfl

theorem ofText_escapeAttribute (name : QName) (value : List Char) :
    RawAttribute.ofText name (escapeAttribute value)
      = .ok ⟨name, value.map attributePiece⟩ := by
  have hlt : (escapeAttribute value).contains '<' = false := by
    rw [List.contains_eq_mem, decide_eq_false_iff_not]
    intro h
    exact (ne_of_mem_escapeAttribute h).1 rfl
  rw [RawAttribute.ofText, if_neg (by simp only [hlt]; decide), pieces_escapeAttribute]
  rfl

theorem readAttributes_step {done : List RawAttribute} {s text rest : List Char} {name : QName}
    {a : RawAttribute} (hend : readTagEnd? (s.dropWhile isSpace) = none)
    (hspace : (s.head?.map isSpace).getD false = true)
    (hread : readAssignment? (s.dropWhile isSpace) = some ((name, text), rest))
    (ha : RawAttribute.ofText name text = .ok a) :
    readAttributes done s = readAttributes (a :: done) rest := by
  rw [readAttributes]
  simp only [hend]
  rw [if_pos hspace]
  split
  · rename_i hnone
    rw [hread] at hnone
    cases hnone
  · rename_i hsome
    rw [hread] at hsome
    cases hsome
    rw [ha]

/-- The attributes of a tag are read one by one, up to what ends the tag. -/
theorem readAttributes_append {attributes : List (ExpandedName × List Char)}
    (h : ∀ a ∈ attributes, isName a.1.base = true) {tail rest : List Char} {e : TagEnd}
    (hend : readTagEnd? (tail.dropWhile isSpace) = some (e, rest)) (done : List RawAttribute) :
    readAttributes done (attributes.flatMap renderAttribute ++ tail)
      = .ok ((done.reverse ++ attributes.map rawAttribute, e), rest) := by
  induction attributes generalizing done with
  | nil =>
    rw [List.flatMap_nil, List.nil_append, readAttributes, hend]
    simp
  | cons a attributes ih =>
    have hname := h a List.mem_cons_self
    obtain ⟨c, s, hcs, -, hspace, hgt, hslash, -, -⟩ := exists_of_isName hname
    -- After its leading space, the text goes on with a name and not with the end of the tag.
    have htext : (a :: attributes).flatMap renderAttribute ++ tail
        = ' ' :: (a.1.base ++ '=' :: '"' :: (escapeAttribute a.2 ++ '"' ::
            (attributes.flatMap renderAttribute ++ tail))) := by
      simp [renderAttribute]
    have hdrop : ∀ t, (' ' :: (a.1.base ++ t)).dropWhile isSpace = a.1.base ++ t := by
      intro t
      rw [List.dropWhile_cons_of_pos (by decide), hcs, List.cons_append,
        List.dropWhile_cons_of_neg (by simp [hspace])]
    have hnoend : ∀ t, readTagEnd? (a.1.base ++ t) = none := by
      intro t
      rw [hcs, List.cons_append]
      unfold readTagEnd?
      split
      · rename_i heq
        exact absurd (List.cons.inj heq).1 hgt
      · rename_i heq
        exact absurd (List.cons.inj heq).1 hslash
      · rfl
    rw [htext, readAttributes_step (by rw [hdrop, hnoend]) rfl
      (by rw [hdrop, readAssignment?_append hname]) (ofText_escapeAttribute _ _),
      ih fun b hb => h b (List.mem_cons_of_mem a hb)]
    simp [rawAttribute]

/-! Reading fragments. -/

namespace Fragment

/-- The first character of a tag. -/
theorem exists_chars_of_not_isText {f : Fragment} (h : f.isText = false) :
    ∃ s, f.chars = '<' :: s := by
  cases f with
  | text s => cases h
  | opening name attributes => exact ⟨_, rfl⟩
  | single name attributes => exact ⟨_, rfl⟩
  | closing name => exact ⟨_, rfl⟩

theorem next_startTag {name : Name} (h : isName name = true) (t : List Char) :
    Token.next ('<' :: (name ++ t)) = (readStartTag (name ++ t)).map fun r => (some r.1, r.2) := by
  obtain ⟨c, s, rfl, -, -, -, hslash, hbang, hquestion⟩ := exists_of_isName h
  rw [List.cons_append]
  unfold Token.next
  split
  · rename_i heq
    exact absurd (List.cons.inj (List.cons.inj heq).2).1 hslash
  · rename_i heq
    exact absurd (List.cons.inj (List.cons.inj heq).2).1 hbang
  · rename_i heq
    exact absurd (List.cons.inj (List.cons.inj heq).2).1 hbang
  · rename_i heq
    exact absurd (List.cons.inj (List.cons.inj heq).2).1 hquestion
  · rename_i heq
    cases heq
    rfl
  · rename_i hno
    exact absurd rfl (hno _)

/-- The character after the name of a tag. -/
theorem exists_after_name (attributes : List (ExpandedName × List Char)) (tail : List Char)
    (d : Char) (hd : isNamePart d = false) :
    ∃ e t, attributes.flatMap renderAttribute ++ d :: tail = e :: t ∧ isNamePart e = false := by
  cases attributes with
  | nil => exact ⟨d, tail, rfl, hd⟩
  | cons a attributes =>
    exact ⟨' ', a.1.base ++ '=' :: '"' :: escapeAttribute a.2 ++ ['"']
      ++ (attributes.flatMap renderAttribute ++ d :: tail), by simp [renderAttribute], by decide⟩

theorem next_opening {name : Name} {attributes : List (ExpandedName × List Char)}
    (h : IsValid (.opening name attributes)) (rest : List Char) :
    Token.next ((opening name attributes).chars ++ rest)
      = .ok (some (opening name attributes).token, rest) := by
  obtain ⟨e, t, het, he⟩ := exists_after_name attributes rest '>' (by decide)
  have hread : readAttributes [] (e :: t)
      = .ok ((attributes.map rawAttribute, .opening), rest) := by
    rw [← het]
    exact readAttributes_append h.2 rfl []
  have hchars : (opening name attributes).chars ++ rest = '<' :: (name ++ e :: t) := by
    simp [chars, ← het]
  rw [hchars, next_startTag h.1, readStartTag, readQName?_append h.1 he]
  simp only [hread]
  rfl

theorem next_single {name : Name} {attributes : List (ExpandedName × List Char)}
    (h : IsValid (.single name attributes)) (rest : List Char) :
    Token.next ((single name attributes).chars ++ rest)
      = .ok (some (single name attributes).token, rest) := by
  obtain ⟨e, t, het, he⟩ :=
    exists_after_name attributes ('/' :: '>' :: rest) ' ' (by decide)
  have hread : readAttributes [] (e :: t)
      = .ok ((attributes.map rawAttribute, .single), rest) := by
    rw [← het]
    exact readAttributes_append h.2 rfl []
  have hchars : (single name attributes).chars ++ rest = '<' :: (name ++ e :: t) := by
    simp [chars, ← het]
  rw [hchars, next_startTag h.1, readStartTag, readQName?_append h.1 he]
  simp only [hread]
  rfl

theorem next_closing {name : Name} (h : IsValid (.closing name)) (rest : List Char) :
    Token.next ((closing name).chars ++ rest) = .ok (some (closing name).token, rest) := by
  obtain ⟨htake, hdrop⟩ := split_isName h (d := '>') (by decide) rest
  obtain ⟨c, s, hcs, hstart, -⟩ := exists_of_isName h
  have hchars : (closing name).chars ++ rest = '<' :: '/' :: (name ++ '>' :: rest) := by
    simp [chars]
  have hhead : (name.head?.map isNameStart).getD false = true := by
    rw [hcs]
    exact hstart
  have hend : readEndTag (name ++ '>' :: rest) = .ok (.closing name, rest) := by
    rw [readEndTag, htake, hdrop, List.dropWhile_cons_of_neg (by decide), afterChar?, if_pos rfl]
    simp only [hhead, if_true]
  rw [hchars, Token.next, hend]
  rfl

theorem next_of_head?_ne {s : List Char} (h : s.head? ≠ some '<') :
    Token.next s = (readData s).map fun r => (some r.1, r.2) := by
  unfold Token.next
  split
  · exact absurd rfl h
  · exact absurd rfl h
  · exact absurd rfl h
  · exact absurd rfl h
  · exact absurd rfl h
  · rfl

theorem head?_escape_append {s : List Char} (h : s ≠ []) (rest : List Char) :
    (escape s ++ rest).head? ≠ some '<' := by
  obtain ⟨d, t, hd⟩ := List.exists_cons_of_ne_nil (escape_ne_nil h)
  have hmem : d ∈ escape s := by simp [hd]
  rw [hd]
  simpa using (ne_of_mem_escape hmem).1

theorem next_text {s rest : List Char} (h : IsValid (.text s)) (hrest : ∀ c ∈ rest.head?, c = '<') :
    Token.next ((text s).chars ++ rest) = .ok (some (text s).token, rest) := by
  have hne : ∀ c ∈ escape s, (c != '<') = true := by
    intro c hc
    simpa using (ne_of_mem_escape hc).1
  have htail : rest.takeWhile (· != '<') = [] ∧ rest.dropWhile (· != '<') = rest := by
    cases rest with
    | nil => exact ⟨rfl, rfl⟩
    | cons c rest =>
      rw [hrest c rfl]
      exact ⟨rfl, rfl⟩
  have htake : (escape s ++ rest).takeWhile (· != '<') = escape s := by
    rw [List.takeWhile_append_of_pos hne, htail.1, List.append_nil]
  have hdrop : (escape s ++ rest).dropWhile (· != '<') = rest := by
    rw [List.dropWhile_append_of_pos hne, htail.2]
  have hend : hasSectionEnd (escape s) = false :=
    hasSectionEnd_of_ne fun c hc => (ne_of_mem_escape hc).2
  have hdata : readData (escape s ++ rest) = .ok (.data (s.map textPiece), rest) := by
    rw [readData, htake, hdrop]
    simp only [hend, pieces_escape]
    rfl
  rw [chars, next_of_head?_ne (head?_escape_append h rest), hdata]
  rfl

/-- A fragment is read off the front of a text; after a run of text, markup or the end has to
follow. -/
theorem next_chars {f : Fragment} (h : f.IsValid) {rest : List Char}
    (hrest : f.isText = true → ∀ c ∈ rest.head?, c = '<') :
    Token.next (f.chars ++ rest) = .ok (some f.token, rest) := by
  cases f with
  | opening name attributes => exact next_opening h rest
  | single name attributes => exact next_single h rest
  | text s => exact next_text h (hrest rfl)
  | closing name => exact next_closing h rest

theorem chars_ne_nil {f : Fragment} (h : f.IsValid) : f.chars ≠ [] := by
  cases f with
  | text s => exact escape_ne_nil h
  | opening name attributes => exact List.cons_ne_nil _ _
  | single name attributes => exact List.cons_ne_nil _ _
  | closing name => exact List.cons_ne_nil _ _

end Fragment

theorem scanFrom_step {done : List Token} {s rest : List Char} {t : Option Token} (hs : s ≠ [])
    (h : Token.next s = .ok (t, rest)) :
    Token.scanFrom done s = Token.scanFrom (t.toList ++ done) rest := by
  rw [Token.scanFrom, dif_neg hs]
  split
  · rename_i herror
    rw [h] at herror
    cases herror
  · rename_i hok
    rw [h] at hok
    cases hok
    rfl

theorem scanFrom_error {done : List Token} {s : List Char} {e : Malformed} (hs : s ≠ [])
    (h : Token.next s = .error e) : Token.scanFrom done s = .error e := by
  rw [Token.scanFrom, dif_neg hs]
  split
  · rename_i herror
    rw [h] at herror
    cases herror
    rfl
  · rename_i hok
    rw [h] at hok
    cases hok

/-- A row of fragments is read off the front of a text; if it ends with text, markup or the end has
to follow. -/
theorem scanFrom_fragments {fs : List Fragment} (h : IsRow fs) (rest : List Char)
    (hrest : (∃ f ∈ fs.getLast?, f.isText = true) → ∀ c ∈ rest.head?, c = '<')
    (done : List Token) :
    Token.scanFrom done (fs.flatMap Fragment.chars ++ rest)
      = Token.scanFrom ((fs.map Fragment.token).reverse ++ done) rest := by
  induction fs generalizing done with
  | nil => rfl
  | cons f fs ih =>
    have hvalid := h.valid f List.mem_cons_self
    have htail : IsRow fs :=
      ⟨fun g hg => h.valid g (List.mem_cons_of_mem f hg), h.separated.tail⟩
    have hafter : f.isText = true →
        ∀ c ∈ (fs.flatMap Fragment.chars ++ rest).head?, c = '<' := by
      intro hf
      cases fs with
      | nil => exact hrest ⟨f, rfl, hf⟩
      | cons g fs =>
        have hg : g.isText = false := h.separated.rel_head? rfl hf
        obtain ⟨s, hs⟩ := Fragment.exists_chars_of_not_isText hg
        intro c hc
        rw [List.flatMap_cons, hs] at hc
        exact (Option.some.inj hc).symm
    have hlast : (∃ f ∈ fs.getLast?, f.isText = true) → ∀ c ∈ rest.head?, c = '<' := by
      rintro ⟨g, hg, htext⟩
      refine hrest ⟨g, ?_, htext⟩
      cases fs with
      | nil => cases hg
      | cons k fs => exact hg
    have hne : f.chars ++ (fs.flatMap Fragment.chars ++ rest) ≠ [] := by
      simp [Fragment.chars_ne_nil hvalid]
    rw [List.flatMap_cons, List.append_assoc,
      scanFrom_step hne (Fragment.next_chars hvalid hafter), ih htail hlast]
    simp

/-- A row of fragments is scanned as its tokens. -/
theorem scan_fragments {fs : List Fragment} (h : IsRow fs) :
    Token.scan (fs.flatMap Fragment.chars) = .ok (fs.map Fragment.token) := by
  have hrow := scanFrom_fragments h [] (by simp) []
  rw [List.append_nil, List.append_nil] at hrow
  rw [Token.scan, hrow, Token.scanFrom, dif_pos rfl, List.reverse_reverse]

end LicenseDepot.Markup
