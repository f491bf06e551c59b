import LicenseDepot.Markup.Token

/-!
# Tokens of a document type

The parts of a document type declaration and of the declarations inside it: names, literals and
marks. What a token is depends only on its characters; which tokens make a declaration is a matter
of its grammar.
-/

namespace LicenseDepot.Markup.Doctype

/-- How often a part of a content model may occur. -/
inductive Repetition
  | once
  | atMostOnce
  | anyNumber
  | atLeastOnce
  deriving DecidableEq, Repr

/-- A token of a document type. -/
inductive Mark
  /-- A name without a colon. -/
  | name (s : Name)
  /-- A name with one colon in it. -/
  | qualified (s : List Char)
  /-- A run of name characters that is no name. -/
  | word (s : List Char)
  /-- A name, qualified or not, with a sign of repetition. -/
  | repeated (s : List Char) (r : Repetition)
  /-- The text between two quotes. -/
  | literal (s : List Char)
  /-- A name after a number sign. -/
  | keyword (s : Name)
  /-- A percent sign that stands alone. -/
  | percent
  /-- A left parenthesis. -/
  | opening
  /-- A right parenthesis with what follows it directly. -/
  | closing (r : Repetition)
  | comma
  | bar
  deriving DecidableEq, Repr

/-- The repetition that a sign stands for. -/
def repetition? (c : Char) : Option Repetition :=
  if c = '?' then some .atMostOnce
  else if c = '*' then some .anyNumber
  else if c = '+' then some .atLeastOnce
  else none

/-- Whether a text goes on with one of some characters or with space. -/
def goesOn (marks : List Char) (s : List Char) : Bool :=
  match s with
  | [] => false
  | c :: _ => isSpace c || marks.contains c

/-- What a run of name characters and colons is. -/
def Mark.ofRun [NameLetters] (s : List Char) : Mark :=
  if isName s then .name s
  else if (s.head?.map isNameStart).getD false && s.count ':' == 1 && s.getLast? != some ':' then
    .qualified s
  else .word s

/-- Reads a name, or a run of name characters, and the sign of repetition after it. -/
def readRun? [NameLetters] (s : List Char) : Option (Mark × List Char) :=
  let run := s.takeWhile isNamePart
  let rest := s.dropWhile isNamePart
  if run.isEmpty then none
  else if goesOn ['>', ')', ',', '|', '[', '%'] rest then some (Mark.ofRun run, rest)
  else
    match rest with
    | [] => none
    | c :: rest =>
      match repetition? c, Mark.ofRun run with
      | some r, .name n => some (.repeated n r, rest)
      | some r, .qualified n => some (.repeated n r, rest)
      | _, _ => none

/-- Reads the token that leads a text. A literal has to be followed by space or one of a few
marks, and so has a parenthesis. -/
def Mark.read? [NameLetters] (s : List Char) : Option (Mark × List Char) :=
  match s with
  | [] => none
  | c :: rest =>
    if c = '"' ∨ c = '\'' then
      (readQuoted? s).bind fun (text, after) =>
        if goesOn ['>', '%', '['] after then some (.literal text, after) else none
    else if c = '#' then
      let name := rest.takeWhile isNameChar
      let after := rest.dropWhile isNameChar
      if isName name && goesOn [')', '>', '%', '|'] after then some (.keyword name, after)
      else none
    else if c = '%' then if goesOn ['%'] rest then some (.percent, rest) else none
    else if c = '(' then some (.opening, rest)
    else if c = ')' then
      match rest with
      | [] => none
      | d :: after =>
        match repetition? d with
        | some r => some (.closing r, after)
        | none => if goesOn ['>', ',', '|', ')'] rest then some (.closing .once, rest) else none
    else if c = ',' then some (.comma, rest)
    else if c = '|' then some (.bar, rest)
    else readRun? s

theorem length_of_readRun? [NameLetters] {s rest : List Char} {m : Mark}
    (h : readRun? s = some (m, rest)) : rest.length < s.length := by
  unfold readRun? at h
  simp only at h
  have hsplit : s.takeWhile isNamePart ++ s.dropWhile isNamePart = s :=
    List.takeWhile_append_dropWhile
  have hlen : (s.takeWhile isNamePart).length + (s.dropWhile isNamePart).length = s.length := by
    rw [← List.length_append, hsplit]
  split at h
  · simp at h
  · rename_i hrun
    have hpos : 0 < (s.takeWhile isNamePart).length := by
      cases hr : s.takeWhile isNamePart with
      | nil => simp [hr] at hrun
      | cons => simp
    split at h
    · simp only [Option.some.injEq, Prod.mk.injEq] at h
      rw [← h.2]
      omega
    · split at h
      · simp at h
      · rename_i hd
        rw [hd] at hlen
        simp only [List.length_cons] at hlen
        split at h
        · simp only [Option.some.injEq, Prod.mk.injEq] at h
          rw [← h.2]
          omega
        · simp only [Option.some.injEq, Prod.mk.injEq] at h
          rw [← h.2]
          omega
        · simp at h

theorem length_of_read? [NameLetters] {s rest : List Char} {m : Mark}
    (h : Mark.read? s = some (m, rest)) : rest.length < s.length := by
  unfold Mark.read? at h
  split at h
  · simp at h
  · rename_i c t
    split at h
    · obtain ⟨⟨text, after⟩, hq, h⟩ := Option.bind_eq_some_iff.1 h
      have := length_of_readQuoted? hq
      simp only at h
      split at h
      · simp_all
      · simp at h
    · split at h
      · have h1 : (t.dropWhile isNameChar).length ≤ t.length := (List.dropWhile_sublist _).length_le
        simp only at h
        split at h
        · simp only [Option.some.injEq, Prod.mk.injEq] at h
          rw [← h.2]
          simp
          omega
        · simp at h
      · split at h
        · split at h
          · simp only [Option.some.injEq, Prod.mk.injEq] at h
            simp [← h.2]
          · simp at h
        · split at h
          · simp only [Option.some.injEq, Prod.mk.injEq] at h
            simp [← h.2]
          · split at h
            · split at h
              · simp at h
              · split at h
                · simp only [Option.some.injEq, Prod.mk.injEq] at h
                  simp only [← h.2, List.length_cons]
                  omega
                · split at h
                  · simp only [Option.some.injEq, Prod.mk.injEq] at h
                    simp [← h.2]
                  · simp at h
            · split at h
              · simp only [Option.some.injEq, Prod.mk.injEq] at h
                simp [← h.2]
              · split at h
                · simp only [Option.some.injEq, Prod.mk.injEq] at h
                  simp [← h.2]
                · exact length_of_readRun? h

/-- Reads tokens up to the end of a declaration or the beginning of an internal subset, which is
left in the rest. `done` holds the tokens read so far, last one first. -/
def Mark.readAll? [NameLetters] (done : List Mark) (s : List Char) :
    Option (List Mark × List Char) :=
  let t := s.dropWhile isSpace
  match t with
  | [] => none
  | c :: rest =>
    if c = '>' ∨ c = '[' then some (done.reverse, c :: rest)
    else
      match h : Mark.read? t with
      | none => none
      | some (m, rest) =>
        have := length_of_read? h
        have : t.length ≤ s.length := (List.dropWhile_sublist _).length_le
        Mark.readAll? (m :: done) rest
termination_by s.length

theorem length_of_readAll? [NameLetters] {done ms : List Mark} {s rest : List Char}
    (h : Mark.readAll? done s = some (ms, rest)) : rest.length ≤ s.length := by
  fun_induction Mark.readAll? done s with
  | case1 => simp at h
  | case2 done s t c rest' ht hc =>
    simp only [Option.some.injEq, Prod.mk.injEq] at h
    have h1 : t.length ≤ s.length := (List.dropWhile_sublist _).length_le
    rw [← h.2, ← ht]
    exact h1
  | case3 => simp at h
  | case4 done s t _ _ _ _ m rest' _ h1 h2 ih =>
    have := ih h
    omega

end LicenseDepot.Markup.Doctype
