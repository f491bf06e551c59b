import LicenseDepot.License
import LicenseDepot.Markup.Document
import LicenseDepot.Timestamp.Iso

/-!
# Reading the terms of a licence from a document

The root element has to be named `license`. Of each of its children that is read once, the first
one counts, and children of other names are passed over. Identifier, type and expiry date are
trimmed; names, values and features are taken as they stand.
-/

namespace LicenseDepot.LicenseDocument

open Markup Text Numeral

/-- Why a field of a document cannot be read. -/
inductive FieldFault
  | id (fault : LicenseId.Fault)
  | type (word : String)
  | expiration (fault : Timestamp.Fault)
  | maxUsers (fault : Integer.Fault)
  deriving DecidableEq, Repr

/-- The report of a field that cannot be read. -/
def FieldFault.message : FieldFault → String
  | .id fault => fault.message
  | .type word => LicenseType.unknownMessage word
  | .expiration fault => fault.message
  | .maxUsers fault => fault.message

/-- Why a well-formed document holds no licence. -/
inductive ContentFault
  /-- The root element has another name. -/
  | root (tag : List Char)
  /-- A field cannot be read. -/
  | field (fault : FieldFault)
  deriving DecidableEq, Repr

/-- The entry about the licensee that an element makes. -/
def entryOf (e : Element) : String × String :=
  (String.ofList ((e.attribute? "name").getD []), String.ofList e.text)

/-- The entries about the licensee, in the order of the document. -/
def entriesOf (root : Element) : List (String × String) :=
  ((root.childrenNamed "licensee").flatMap (·.childrenNamed "entry")).map entryOf

/-- The features, in the order of the document. -/
def featuresOf (root : Element) : List String :=
  ((root.childrenNamed "features").flatMap (·.childrenNamed "feature")).map fun e =>
    String.ofList e.text

/-- The type that a word names. -/
def readType (word : List Char) : Except FieldFault LicenseType :=
  let word := String.ofList (trim word)
  match LicenseType.ofText? word with
  | some type => .ok type
  | none => .error (.type word)

/-- A field that may be missing or empty, read by `f` otherwise. -/
def readOptional {α : Type} (text : Option (List Char))
    (f : List Char → Except FieldFault α) : Except FieldFault (Option α) :=
  match text with
  | none | some [] => .ok none
  | some s => (f s).map some

/-- The terms that the root element of a document states. -/
def readFields (root : Element) : Except FieldFault Terms := do
  let id ← (LicenseId.read ((root.childText? "id").getD [])).mapError .id
  let type ← readType ((root.childText? "type").getD "FREE".toList)
  let expiration ← readOptional (root.childText? "expirationDate") fun s =>
    (Timestamp.read (trim s)).mapError .expiration
  let maxUsers ← readOptional (root.childText? "maxUserCount") fun s =>
    (Integer.read 10 s).mapError .maxUsers
  return { id, type, licensee := .ofList (entriesOf root), features := featuresOf root,
           expiration, maxUsers }

/-- The terms that a root element states, if it is that of a licence. -/
def ofElement (root : Element) : Except ContentFault Terms :=
  if root.name = .plain "license".toList then (readFields root).mapError .field
  else .error (.root root.name.chars)

end LicenseDepot.LicenseDocument
