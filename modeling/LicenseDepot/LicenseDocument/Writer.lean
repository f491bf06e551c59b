import LicenseDepot.License
import LicenseDepot.Markup.Writer
import LicenseDepot.Timestamp.Iso

/-!
# Writing the terms of a licence as a document

The terms are written as one element with a child for each of them; the licensee and the features
are always there, an expiry date and a number of users only if the terms have one. Not every text
can be held by a document: the first character that cannot is reported, in the order of writing.
-/

namespace LicenseDepot.LicenseDocument

open Markup Text Numeral

/-- The declaration that begins a written document. -/
def declaration : List Char :=
  "<?xml version=\"1.0\" encoding=\"UTF-8\"?>\n".toList

/-- A part of the terms whose text is free. -/
inductive Field
  /-- The name of an entry about the licensee. -/
  | entryName
  /-- The value of the entry of a name. -/
  | entryValue (name : String)
  | feature
  deriving DecidableEq, Repr

/-- What a field is called. -/
def Field.label : Field → String
  | .entryName => "licensee"
  | .entryValue name => s!"licensee[{quoted name}]"
  | .feature => "features"

/-- Why terms cannot be written. -/
inductive Fault
  /-- A field holds a character that its place in a document cannot hold. -/
  | unrepresentable (field : Field) (c : Char)
  /-- The number of users has too many digits. -/
  | maxUsers
  deriving DecidableEq, Repr

/-- The report of terms that cannot be written. -/
def Fault.message : Fault → String
  | .unrepresentable field c =>
    s!"El campo {field.label} contiene un carácter no representable en XML: "
      ++ s!"U+{String.ofList (upperHex 4 c.toNat)}"
  | .maxUsers => Integer.unwritableMessage

/-- Whether an attribute keeps the character when it is read back. The code points from U+D800 to
U+DFFF, which no document can hold either, are not among the characters of a text: where texts can
hold halves of surrogate pairs, these have to be refused as well. -/
def isAttributeChar (c : Char) : Bool :=
  decide (0x20 ≤ c.toNat) && c.toNat != 0xFFFE && c.toNat != 0xFFFF

/-- Whether text keeps the character when it is read back. -/
def isTextChar (c : Char) : Bool :=
  isAttributeChar c || c == '\t' || c == '\n'

/-- Whether a place of a kind can hold the character. -/
def Field.holds : Field → Char → Bool
  | .entryName, c => isAttributeChar c
  | .entryValue _, c => isTextChar c
  | .feature, c => isTextChar c

/-- The characters of a field, unless its place cannot hold one of them. -/
def checked (field : Field) (s : String) : Except Fault (List Char) :=
  match s.toList.find? fun c => !field.holds c with
  | some c => .error (.unrepresentable field c)
  | none => .ok s.toList

/-- An element of a name, with text. -/
def leaf (name : String) (text : List Char) : Element :=
  { name := .plain name.toList, text }

/-- An element of a name, with children. -/
def branch (name : String) (children : List Element) : Element :=
  { name := .plain name.toList, children }

/-- The element of an entry about the licensee. -/
def entryElement (entry : String × String) : Except Fault Element := do
  let name ← checked .entryName entry.1
  let value ← checked (.entryValue entry.1) entry.2
  return { leaf "entry" value with attributes := [(.plain "name".toList, name)] }

/-- The element of a feature. -/
def featureElement (feature : String) : Except Fault Element :=
  (checked .feature feature).map (leaf "feature")

/-- The numeral of a number of users. -/
def maxUsersText (n : Int) : Except Fault (List Char) :=
  if Integer.isWritable n then .ok (Integer.digits n) else .error .maxUsers

/-- The element of some terms. -/
def toElement (t : Terms) : Except Fault Element := do
  let entries ← t.licensee.entries.mapM entryElement
  let features ← t.features.mapM featureElement
  let maxUsers ← t.maxUsers.mapM maxUsersText
  return branch "license" <|
    [leaf "id" t.id.chars, leaf "type" t.type.toText.toList, branch "licensee" entries,
      branch "features" features]
    ++ (t.expiration.map fun e => leaf "expirationDate" e.iso).toList
    ++ (maxUsers.map (leaf "maxUserCount")).toList

/-- The document of some terms. -/
def write (t : Terms) : Except Fault (List Char) :=
  (toElement t).map fun e => declaration ++ e.render

end LicenseDepot.LicenseDocument
