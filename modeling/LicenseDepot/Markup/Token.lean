import LicenseDepot.Markup.Piece
import LicenseDepot.Markup.Remark

/-!
# Tokens of content

The text from the root element on, and the text of an entity, are sequences of tags, sections and
runs of character data. Reading tokens checks how each of them is written, and nothing else:
whether tags match, entities exist and namespaces are bound is seen later. Comments and processing
instructions leave no token.
-/

namespace LicenseDepot.Markup

/-- An attribute as a tag spells it. -/
structure RawAttribute where
  name : QName
  value : List Piece
  deriving DecidableEq, Repr

/-- A token of content. -/
inductive Token
  /-- A run of character data between two tags or sections. -/
  | data (pieces : List Piece)
  /-- A section whose characters all stand for themselves. -/
  | cdata (text : List Char)
  /-- The tag that begins an element. -/
  | opening (name : QName) (attributes : List RawAttribute)
  /-- The tag of an element without content. -/
  | single (name : QName) (attributes : List RawAttribute)
  /-- The tag that ends an element. -/
  | closing (name : List Char)
  deriving DecidableEq, Repr

/-- The text of a quoted value whose opening quote has been read, and what follows its end. -/
def splitQuoted? (quote : Char) (s : List Char) : Option (List Char × List Char) :=
  match s.dropWhile (· != quote) with
  | [] => none
  | _ :: rest => some (s.takeWhile (· != quote), rest)

theorem length_of_splitQuoted? {quote : Char} {s body rest : List Char}
    (h : splitQuoted? quote s = some (body, rest)) : rest.length < s.length := by
  unfold splitQuoted? at h
  split at h
  · simp at h
  · rename_i hd
    simp only [Option.some.injEq, Prod.mk.injEq] at h
    have : (s.dropWhile (· != quote)).length ≤ s.length := (List.dropWhile_sublist _).length_le
    rw [hd] at this
    simp at this
    rw [← h.2]
    omega

/-- The text of a value between quotes of either kind, and what follows it. -/
def readQuoted? : List Char → Option (List Char × List Char)
  | [] => none
  | q :: s => if q = '"' ∨ q = '\'' then splitQuoted? q s else none

theorem length_of_readQuoted? {s body rest : List Char}
    (h : readQuoted? s = some (body, rest)) : rest.length < s.length := by
  cases s with
  | nil => simp [readQuoted?] at h
  | cons q s =>
    simp only [readQuoted?] at h
    split at h
    · have := length_of_splitQuoted? h
      simp
      omega
    · simp at h

/-- The qualified name that leads a text, and what follows it. -/
def readQName? [NameLetters] (s : List Char) : Option (QName × List Char) :=
  (QName.ofChars? (s.takeWhile isNamePart)).map (·, s.dropWhile isNamePart)

theorem length_of_readQName? [NameLetters] {s rest : List Char} {name : QName}
    (h : readQName? s = some (name, rest)) : rest.length ≤ s.length := by
  obtain ⟨_, _, hr⟩ := Option.map_eq_some_iff.1 h
  rw [← (Prod.mk.inj hr).2]
  exact (List.dropWhile_sublist _).length_le

/-- The name of an attribute and the text of its value, and what follows them. -/
def readAssignment? [NameLetters] (s : List Char) : Option ((QName × List Char) × List Char) :=
  (readQName? s).bind fun (name, s) =>
    (afterChar? '=' (s.dropWhile isSpace)).bind fun s =>
      (readQuoted? (s.dropWhile isSpace)).map fun (value, s) => ((name, value), s)

theorem length_of_readAssignment? [NameLetters] {s rest : List Char} {a : QName × List Char}
    (h : readAssignment? s = some (a, rest)) : rest.length < s.length := by
  obtain ⟨⟨name, t⟩, ht, h⟩ := Option.bind_eq_some_iff.1 h
  obtain ⟨u, hu, h⟩ := Option.bind_eq_some_iff.1 h
  obtain ⟨⟨value, v⟩, hv, h⟩ := Option.map_eq_some_iff.1 h
  have h1 := length_of_readQName? ht
  have h2 := length_of_afterChar? hu
  have h3 := length_of_readQuoted? hv
  have h4 : (t.dropWhile isSpace).length ≤ t.length := (List.dropWhile_sublist _).length_le
  have h5 : (u.dropWhile isSpace).length ≤ u.length := (List.dropWhile_sublist _).length_le
  rw [← (Prod.mk.inj h).2]
  simp only at *
  omega

/-- An attribute of a tag from its name and the text of its value, which may hold no `<`. -/
def RawAttribute.ofText [NameLetters] (name : QName) (text : List Char) :
    Except Malformed RawAttribute :=
  if text.contains '<' then .error .token
  else (pieces text).map (⟨name, ·⟩)

/-- How a tag that begins an element ends. -/
inductive TagEnd
  /-- The content of the element follows. -/
  | opening
  /-- The element has no content. -/
  | single
  deriving DecidableEq, Repr

/-- The end of a tag and what follows it. -/
def readTagEnd? : List Char → Option (TagEnd × List Char)
  | '>' :: s => some (.opening, s)
  | '/' :: '>' :: s => some (.single, s)
  | _ => none

theorem length_of_readTagEnd? {s rest : List Char} {e : TagEnd}
    (h : readTagEnd? s = some (e, rest)) : rest.length < s.length := by
  unfold readTagEnd? at h
  split at h
  · simp_all
  · simp only [Option.some.injEq, Prod.mk.injEq] at h
    rw [← h.2, List.length_cons, List.length_cons]
    omega
  · simp at h

/-- Reads the rest of a tag after its name: attributes, each after some space, and the end of the
tag. `done` holds the attributes read so far, last one first. -/
def readAttributes [NameLetters] (done : List RawAttribute) (s : List Char) :
    Except Malformed ((List RawAttribute × TagEnd) × List Char) :=
  let t := s.dropWhile isSpace
  match readTagEnd? t with
  | some (e, rest) => .ok ((done.reverse, e), rest)
  | none =>
    if (s.head?.map isSpace).getD false then
      match h : readAssignment? t with
      | none => .error .token
      | some ((name, text), rest) =>
        have := length_of_readAssignment? h
        have : t.length ≤ s.length := (List.dropWhile_sublist _).length_le
        match RawAttribute.ofText name text with
        | .error e => .error e
        | .ok a => readAttributes (a :: done) rest
    else .error .token
termination_by s.length

theorem length_of_readAttributes [NameLetters] {done : List RawAttribute} {s rest : List Char}
    {r : List RawAttribute × TagEnd} (h : readAttributes done s = .ok (r, rest)) :
    rest.length < s.length := by
  fun_induction readAttributes done s with
  | case1 done s t e rest' he =>
    have h1 := length_of_readTagEnd? he
    have h2 : t.length ≤ s.length := (List.dropWhile_sublist _).length_le
    simp only [Except.ok.injEq, Prod.mk.injEq] at h
    rw [← h.2]
    omega
  | case2 => simp at h
  | case3 => simp at h
  | case4 done s t _ _ name text rest' ha h1 h2 a _ ih =>
    have := ih h
    omega
  | case5 => simp at h

/-- Reads a tag that begins an element, after its opening bracket. -/
def readStartTag [NameLetters] (s : List Char) : Except Malformed (Token × List Char) :=
  match readQName? s with
  | none => .error .token
  | some (name, s) =>
    match readAttributes [] s with
    | .error e => .error e
    | .ok ((attributes, .opening), rest) => .ok (.opening name attributes, rest)
    | .ok ((attributes, .single), rest) => .ok (.single name attributes, rest)

theorem length_of_readStartTag [NameLetters] {s rest : List Char} {t : Token}
    (h : readStartTag s = .ok (t, rest)) : rest.length < s.length := by
  unfold readStartTag at h
  split at h
  · simp at h
  · rename_i name s' hn
    have h1 := length_of_readQName? hn
    split at h
    · simp at h
    all_goals
      rename_i ha
      have h2 := length_of_readAttributes ha
      simp only [Except.ok.injEq, Prod.mk.injEq] at h
      rw [← h.2]
      omega

/-- Reads a tag that ends an element, after its opening mark. -/
def readEndTag [NameLetters] (s : List Char) : Except Malformed (Token × List Char) :=
  let name := s.takeWhile isNamePart
  match afterChar? '>' ((s.dropWhile isNamePart).dropWhile isSpace) with
  | none => .error .token
  | some rest => if (name.head?.map isNameStart).getD false then .ok (.closing name, rest)
    else .error .token

theorem length_of_readEndTag [NameLetters] {s rest : List Char} {t : Token}
    (h : readEndTag s = .ok (t, rest)) : rest.length < s.length := by
  unfold readEndTag at h
  simp only at h
  split at h
  · simp at h
  · rename_i r hr
    have h1 := length_of_afterChar? hr
    have h2 : ((s.dropWhile isNamePart).dropWhile isSpace).length
        ≤ (s.dropWhile isNamePart).length := (List.dropWhile_sublist _).length_le
    have h3 : (s.dropWhile isNamePart).length ≤ s.length := (List.dropWhile_sublist _).length_le
    split at h
    · simp only [Except.ok.injEq, Prod.mk.injEq] at h
      rw [← h.2]
      omega
    · simp at h

/-- The text of a section whose opening has been read, and what follows its end. `done` holds its
characters so far, last one first. -/
def splitSection? (done : List Char) : List Char → Option (List Char × List Char)
  | [] => none
  | c :: s =>
    if c = ']' ∧ s.take 2 = [']', '>'] then some (done.reverse, s.drop 2)
    else splitSection? (c :: done) s

theorem length_of_splitSection? {done s body rest : List Char}
    (h : splitSection? done s = some (body, rest)) : rest.length < s.length := by
  induction s generalizing done with
  | nil => simp [splitSection?] at h
  | cons c s ih =>
    unfold splitSection? at h
    split at h
    · simp only [Option.some.injEq, Prod.mk.injEq] at h
      rw [← h.2, List.length_drop, List.length_cons]
      omega
    · have := ih h
      rw [List.length_cons]
      omega

/-- Whether the end mark of a section occurs in a run of character data. -/
def hasSectionEnd (s : List Char) : Bool :=
  (splitSection? [] s).isSome

/-- Reads a run of character data, up to the next bracket. -/
def readData [NameLetters] (s : List Char) : Except Malformed (Token × List Char) :=
  let text := s.takeWhile (· != '<')
  if hasSectionEnd text then .error .token
  else (pieces text).map fun ps => (.data ps, s.dropWhile (· != '<'))

/-- Reads the token that leads a text, or no token if it is a comment or instruction. -/
def Token.next [NameLetters] (s : List Char) : Except Malformed (Option Token × List Char) :=
  match s with
  | '<' :: '/' :: s => (readEndTag s).map fun (t, rest) => (some t, rest)
  | '<' :: '!' :: '[' :: 'C' :: 'D' :: 'A' :: 'T' :: 'A' :: '[' :: s =>
    match splitSection? [] s with
    | none => .error .token
    | some (text, rest) => .ok (some (.cdata text), rest)
  | '<' :: '!' :: _ | '<' :: '?' :: _ =>
    match afterRemark? s with
    | none => .error .token
    | some rest => .ok (none, rest)
  | '<' :: s => (readStartTag s).map fun (t, rest) => (some t, rest)
  | s => (readData s).map fun (t, rest) => (some t, rest)

theorem length_of_next [NameLetters] {s rest : List Char} {t : Option Token} (hs : s ≠ [])
    (h : Token.next s = .ok (t, rest)) : rest.length < s.length := by
  unfold Token.next at h
  split at h
  · rename_i s
    cases hr : readEndTag s with
    | error e => simp [hr, Except.map] at h
    | ok r =>
      have h1 := length_of_readEndTag (show _ = Except.ok (r.1, r.2) from hr)
      simp only [hr, Except.map, Except.ok.injEq, Prod.mk.injEq] at h
      rw [← h.2]
      simp
      omega
  · split at h
    · simp at h
    · rename_i hr
      have h1 := length_of_splitSection? hr
      simp only [Except.ok.injEq, Prod.mk.injEq] at h
      rw [← h.2]
      simp
      omega
  · split at h
    · simp at h
    · rename_i hr
      have h1 := length_of_afterRemark? hr
      simp only [Except.ok.injEq, Prod.mk.injEq] at h
      rw [← h.2]
      exact h1
  · split at h
    · simp at h
    · rename_i hr
      have h1 := length_of_afterRemark? hr
      simp only [Except.ok.injEq, Prod.mk.injEq] at h
      rw [← h.2]
      exact h1
  · rename_i s _ _ _ _
    cases hr : readStartTag s with
    | error e => simp [hr, Except.map] at h
    | ok r =>
      have h1 := length_of_readStartTag (show _ = Except.ok (r.1, r.2) from hr)
      simp only [hr, Except.map, Except.ok.injEq, Prod.mk.injEq] at h
      rw [← h.2]
      simp
      omega
  · rename_i hc
    cases s with
    | nil => exact absurd rfl hs
    | cons c s =>
      have hne : (c != '<') = true := by
        simp only [bne_iff_ne, ne_eq]
        intro hc'
        subst hc'
        exact hc s rfl
      unfold readData at h
      simp only at h
      split at h
      · simp [Except.map] at h
      · cases hp : pieces ((c :: s).takeWhile (· != '<')) with
        | error e => simp [hp, Except.map] at h
        | ok ps =>
          simp only [hp, Except.map, Except.ok.injEq, Prod.mk.injEq] at h
          rw [← h.2]
          have : (s.dropWhile (· != '<')).length ≤ s.length := (List.dropWhile_sublist _).length_le
          simp only [List.dropWhile_cons, hne, if_true, List.length_cons]
          omega

/-- Reads tokens to the end of a text; `done` holds those read so far, last one first. -/
def Token.scanFrom [NameLetters] (done : List Token) (s : List Char) :
    Except Malformed (List Token) :=
  if hs : s = [] then .ok done.reverse
  else
    match h : Token.next s with
    | .error e => .error e
    | .ok (t, rest) =>
      have := length_of_next hs h
      Token.scanFrom (t.toList ++ done) rest
termination_by s.length

/-- The tokens of content. -/
def Token.scan [NameLetters] (s : List Char) : Except Malformed (List Token) :=
  Token.scanFrom [] s

end LicenseDepot.Markup
