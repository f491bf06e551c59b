import LicenseDepot.Markup.Malformed
import LicenseDepot.Markup.Remark
import LicenseDepot.Markup.Token

/-!
# The declaration of a document

A document may begin with a declaration of its version, its encoding and whether it stands alone,
in this order. The version is required and may be any word; the two others may be left out.
-/

namespace LicenseDepot.Markup

/-- What a document declares of itself. -/
structure Declaration where
  encoding : Option (List Char) := none
  standalone : Bool := false
  deriving DecidableEq, Repr

namespace Declaration

/-- The mark that begins a declaration. -/
def openingMark : List Char := "<?xml".toList

/-- Whether a character may stand in a value of a declaration. -/
def isValueChar (c : Char) : Bool :=
  c.isAlphanum || c == '.' || c == '-' || c == '_'

/-- The text between the opening mark and the end of a declaration, and what follows it. `done`
holds its characters so far, last one first. -/
def split? (done : List Char) : List Char → Option (List Char × List Char)
  | [] => none
  | c :: s =>
    if c = '?' ∧ s.head? = some '>' then some (done.reverse, s.drop 1) else split? (c :: done) s

/-- One part of a declaration: its name and its value, after some space, and what follows it. -/
def readPart? (s : List Char) : Option ((List Char × List Char) × List Char) :=
  if (s.head?.map isSpace).getD false then
    let t := s.dropWhile isSpace
    let name := t.takeWhile fun c => c != '=' && !isSpace c
    let rest := t.dropWhile fun c => c != '=' && !isSpace c
    (afterChar? '=' (rest.dropWhile isSpace)).bind fun u =>
      (readQuoted? (u.dropWhile isSpace)).bind fun (value, v) =>
        if value.all isValueChar then some ((name, value), v) else none
  else none

/-- The parts of a declaration, at most `limit`. -/
def readParts? : (limit : Nat) → List Char → Option (List (List Char × List Char))
  | limit, s =>
    if s.all isSpace then some []
    else
      match limit with
      | 0 => none
      | limit + 1 =>
        (readPart? s).bind fun (part, rest) => (readParts? limit rest).map (part :: ·)

/-- Whether a value may name an encoding: it begins with a letter. -/
def isEncodingName : List Char → Bool
  | [] => false
  | c :: _ => c.isAlpha

/-- The declaration that its last parts make. -/
def ofStandalone? (encoding : Option (List Char)) :
    List (List Char × List Char) → Option Declaration
  | [] => some ⟨encoding, false⟩
  | [(name, value)] =>
    if name = "standalone".toList then
      if value = "yes".toList then some ⟨encoding, true⟩
      else if value = "no".toList then some ⟨encoding, false⟩
      else none
    else none
  | _ => none

/-- The declaration that its parts make. -/
def ofParts? : List (List Char × List Char) → Option Declaration
  | (name, _) :: rest =>
    if name = "version".toList then
      match rest with
      | (name, value) :: more =>
        if name = "encoding".toList then
          if isEncodingName value then ofStandalone? (some value) more else none
        else ofStandalone? none rest
      | [] => some {}
    else none
  | [] => none

/-- Whether a text begins with a declaration. -/
def leads (s : List Char) : Bool :=
  openingMark.isPrefixOf s && !((s.drop 5).head?.map isNameChar).getD false

/-- The declaration that leads a document, if there is one, and what follows it. -/
def read (s : List Char) : Except Malformed (Declaration × List Char) :=
  if leads s then
    match split? [] (s.drop 5) with
    | none => .error .declaration
    | some (body, rest) =>
      match (readParts? 3 body).bind ofParts? with
      | none => .error .declaration
      | some d => .ok (d, rest)
  else .ok ({}, s)

end Declaration

end LicenseDepot.Markup
