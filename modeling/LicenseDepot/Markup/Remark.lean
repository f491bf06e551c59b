import LicenseDepot.Markup.Name

/-!
# Comments and processing instructions

Comments and processing instructions may stand nearly everywhere in a document and mean nothing to
a licence. They are skipped, but only if they are written correctly.
-/

namespace LicenseDepot.Markup

/-- The text after the first occurrence of two characters in a row. -/
def afterPair (a b : Char) : List Char → Option (List Char)
  | [] => none
  | c :: s => if c = a ∧ s.head? = some b then some (s.drop 1) else afterPair a b s

theorem length_of_afterPair {a b : Char} {s rest : List Char} (h : afterPair a b s = some rest) :
    rest.length < s.length := by
  induction s with
  | nil => simp [afterPair] at h
  | cons c s ih =>
    unfold afterPair at h
    split at h
    · simp only [Option.some.injEq] at h
      subst h
      rw [List.length_drop, List.length_cons]
      omega
    · have := ih h
      rw [List.length_cons]
      omega

/-- The text after a character that has to lead it. -/
def afterChar? (a : Char) : List Char → Option (List Char)
  | [] => none
  | c :: s => if c = a then some s else none

theorem length_of_afterChar? {a : Char} {s rest : List Char} (h : afterChar? a s = some rest) :
    rest.length < s.length := by
  cases s with
  | nil => simp [afterChar?] at h
  | cons c s =>
    simp only [afterChar?] at h
    split at h
    · simp_all
    · simp at h

/-- The text after a comment whose opening has been read: no two hyphens may stand in a row before
its end. -/
def afterComment? (s : List Char) : Option (List Char) :=
  (afterPair '-' '-' s).bind (afterChar? '>')

theorem length_of_afterComment? {s rest : List Char} (h : afterComment? s = some rest) :
    rest.length < s.length := by
  obtain ⟨t, ht, hr⟩ := Option.bind_eq_some_iff.1 h
  have := length_of_afterPair ht
  have := length_of_afterChar? hr
  omega

/-- Whether a name is reserved: it is `xml` in any case. -/
def isReserved (name : Name) : Bool :=
  name.map Char.toLower == ['x', 'm', 'l']

/-- The text after a processing instruction whose opening has been read: a target that is not
reserved, and then anything after a space, up to the closing mark. -/
def afterInstruction? [NameLetters] (s : List Char) : Option (List Char) :=
  let target := s.takeWhile isNameChar
  let rest := s.dropWhile isNameChar
  if isName target && !isReserved target
      && ((rest.head?.map isSpace).getD false || rest.take 2 == ['?', '>']) then
    afterPair '?' '>' rest
  else none

theorem length_of_afterInstruction? [NameLetters] {s rest : List Char}
    (h : afterInstruction? s = some rest) : rest.length < s.length := by
  unfold afterInstruction? at h
  simp only at h
  split at h
  · have := length_of_afterPair h
    have : (s.dropWhile isNameChar).length ≤ s.length := (List.dropWhile_sublist _).length_le
    omega
  · simp at h

/-- The text after the comment or processing instruction that leads it. -/
def afterRemark? [NameLetters] : List Char → Option (List Char)
  | '<' :: '!' :: '-' :: '-' :: s => afterComment? s
  | '<' :: '?' :: s => afterInstruction? s
  | _ => none

theorem length_of_afterRemark? [NameLetters] {s rest : List Char} (h : afterRemark? s = some rest) :
    rest.length < s.length := by
  unfold afterRemark? at h
  split at h
  · have := length_of_afterComment? h
    simp
    omega
  · have := length_of_afterInstruction? h
    simp
    omega
  · simp at h

/-- The text after all the space, comments and processing instructions that lead it. -/
def skipRemarks [NameLetters] (s : List Char) : List Char :=
  let t := s.dropWhile isSpace
  match h : afterRemark? t with
  | some rest =>
    have := length_of_afterRemark? h
    have : t.length ≤ s.length := (List.dropWhile_sublist _).length_le
    skipRemarks rest
  | none => t
termination_by s.length

end LicenseDepot.Markup
