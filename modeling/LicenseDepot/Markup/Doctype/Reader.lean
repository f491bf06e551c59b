import LicenseDepot.Markup.Doctype.Grammar

/-!
# Reading a document type

A document type declaration names the root element, and may name a place outside and hold
declarations of its own. The root element is not compared with the name.
-/

namespace LicenseDepot.Markup.Doctype

/-- Reads a declaration, after its opening mark: a word, space, tokens and the closing bracket. -/
def readDeclaration? [NameLetters] (s : List Char) : Option ((List Char × List Mark) × List Char) :=
  let word := s.takeWhile Char.isAlpha
  let rest := s.dropWhile Char.isAlpha
  if goesOn [] rest then
    (Mark.readAll? [] rest).bind fun (marks, rest) =>
      (afterChar? '>' rest).map fun rest => ((word, marks), rest)
  else none

theorem length_of_readDeclaration? [NameLetters] {s rest : List Char} {r : List Char × List Mark}
    (h : readDeclaration? s = some (r, rest)) : rest.length < s.length := by
  unfold readDeclaration? at h
  simp only at h
  split at h
  · obtain ⟨⟨marks, t⟩, ht, h⟩ := Option.bind_eq_some_iff.1 h
    obtain ⟨u, hu, h⟩ := Option.map_eq_some_iff.1 h
    have h1 := length_of_readAll? ht
    have h2 := length_of_afterChar? hu
    have h3 : (s.dropWhile Char.isAlpha).length ≤ s.length := (List.dropWhile_sublist _).length_le
    rw [← (Prod.mk.inj h).2]
    simp only at h2
    omega
  · simp at h

/-- The text after a reference to declarations that stand elsewhere, whose percent sign has been
read. -/
def afterOutside? [NameLetters] (s : List Char) : Option (List Char) :=
  if isName (s.takeWhile isNameChar) then afterChar? ';' (s.dropWhile isNameChar) else none

theorem length_of_afterOutside? [NameLetters] {s rest : List Char}
    (h : afterOutside? s = some rest) : rest.length < s.length := by
  unfold afterOutside? at h
  split at h
  · have h1 := length_of_afterChar? h
    have h2 : (s.dropWhile isNameChar).length ≤ s.length := (List.dropWhile_sublist _).length_le
    omega
  · simp at h

/-- One step through the declarations inside a document type. -/
inductive SubsetStep
  /-- The declarations end. -/
  | finished (rest : List Char)
  /-- A reference to declarations that stand elsewhere. -/
  | outside (rest : List Char)
  /-- A declaration. -/
  | declaration (word : List Char) (marks : List Mark) (rest : List Char)
  /-- None of these. -/
  | fault

/-- The next step, once remarks have been skipped. -/
def SubsetStep.of [NameLetters] (s : List Char) : SubsetStep :=
  match s with
  | ']' :: rest => .finished rest
  | '%' :: s =>
    match afterOutside? s with
    | some rest => .outside rest
    | none => .fault
  | '<' :: '!' :: s =>
    match readDeclaration? s with
    | some ((word, marks), rest) => .declaration word marks rest
    | none => .fault
  | _ => .fault

theorem length_of_outside [NameLetters] {s rest : List Char} (h : SubsetStep.of s = .outside rest) :
    rest.length < s.length := by
  unfold SubsetStep.of at h
  split at h
  · simp at h
  · split at h
    · rename_i hr
      have := length_of_afterOutside? hr
      simp only [SubsetStep.outside.injEq] at h
      simp [← h]
      omega
    · simp at h
  · split at h <;> simp at h
  · simp at h

theorem length_of_declaration [NameLetters] {s rest word : List Char} {marks : List Mark}
    (h : SubsetStep.of s = .declaration word marks rest) : rest.length < s.length := by
  unfold SubsetStep.of at h
  split at h
  · simp at h
  · split at h <;> simp at h
  · split at h
    · rename_i hr
      have := length_of_readDeclaration? hr
      simp only [SubsetStep.declaration.injEq] at h
      simp [← h.2.2]
      omega
    · simp at h
  · simp at h

theorem length_skipRemarks_le [NameLetters] (s : List Char) :
    (skipRemarks s).length ≤ s.length := by
  fun_induction skipRemarks s with
  | case1 s t rest _ h1 h2 ih => omega
  | case2 s t => exact (List.dropWhile_sublist _).length_le

/-- Reads the declarations inside a document type up to their closing bracket. -/
def readSubset [NameLetters] (d : Dtd) (s : List Char) : Except Malformed (Dtd × List Char) :=
  have _ := length_skipRemarks_le s
  match h : SubsetStep.of (skipRemarks s) with
  | .finished rest => .ok (d, rest)
  | .outside rest =>
    have := length_of_outside h
    readSubset d.skipOutside rest
  | .declaration word marks rest =>
    have := length_of_declaration h
    match declare d word marks with
    | .error e => .error e
    | .ok d => readSubset d rest
  | .fault => .error .doctype
termination_by s.length

/-- Whether the tokens of a document type, after its name, name a place outside; nothing if they do
neither that nor end at once. -/
def isOutside? (marks : List Mark) : Option Bool :=
  if marks.isEmpty then some false
  else if afterExternalId? marks = some [] then some true
  else none

/-- Reads a document type declaration, after its keyword. -/
def read [NameLetters] (standalone : Bool) (s : List Char) : Except Malformed (Dtd × List Char) :=
  match if goesOn [] s then Mark.readAll? [] s else none with
  | some (m :: marks, rest) =>
    match nameOf? m, isOutside? marks, rest with
    | some _, some outside, '>' :: rest => .ok ({ standalone, incomplete := outside }, rest)
    | some _, some outside, '[' :: rest =>
      (readSubset { standalone, incomplete := outside } rest).bind fun (d, rest) =>
        match afterChar? '>' (rest.dropWhile isSpace) with
        | some rest => .ok (d, rest)
        | none => .error .doctype
    | _, _, _ => .error .doctype
  | _ => .error .doctype

end LicenseDepot.Markup.Doctype
