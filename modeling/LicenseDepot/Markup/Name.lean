import LicenseDepot.Markup.Character

/-!
# Names

A name in a document is qualified when a colon divides it into two names. The reader of a tag takes
the longest run of name characters and colons and then asks for the qualified name that the run
spells. Once namespaces are known, a qualified name stands for an expanded one: the namespace it
belongs to, if any, and its base.
-/

namespace LicenseDepot.Markup

/-- A name without a colon. -/
abbrev Name := List Char

/-- Whether a text is a name. -/
def isName [NameLetters] : List Char → Bool
  | [] => false
  | c :: s => isNameStart c && s.all isNameChar

/-- Whether a character may stand in a name, qualified or not. -/
def isNamePart [NameLetters] (c : Char) : Bool :=
  isNameChar c || c == ':'

/-- A name as a tag spells it. -/
structure QName where
  qualifier : Option Name
  base : Name
  deriving DecidableEq, Repr

namespace QName

/-- The text of a qualified name. -/
def chars (q : QName) : List Char :=
  match q.qualifier with
  | none => q.base
  | some p => p ++ ':' :: q.base

/-- The qualified name that a text spells. -/
def ofChars? [NameLetters] (s : List Char) : Option QName :=
  if isName s then some ⟨none, s⟩
  else
    let front := s.takeWhile (· != ':')
    let back := (s.dropWhile (· != ':')).drop 1
    if isName front && isName back then some ⟨some front, back⟩ else none

end QName

/-- A name together with the namespace that it belongs to, if any. -/
structure ExpandedName where
  space : Option (List Char)
  base : Name
  deriving DecidableEq, Repr

namespace ExpandedName

/-- A name in no namespace. -/
def plain (base : Name) : ExpandedName := ⟨none, base⟩

/-- The text of an expanded name: the namespace in braces, and then the base. -/
def chars (n : ExpandedName) : List Char :=
  match n.space with
  | none => n.base
  | some uri => '\x7b' :: uri ++ '\x7d' :: n.base

end ExpandedName

end LicenseDepot.Markup
