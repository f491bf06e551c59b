import LicenseDepot.Markup.Entity

/-!
# Document types

What remains of a document type declaration once it has been read: the entities it declares, and
for each attribute of an element whether its value is a list of words and what it is by default. Of
several declarations of one name the first counts. A document type may also refer to declarations
that stand elsewhere and are not read; from the first such reference on, its own declarations are
only checked, unless the document is said to stand alone.
-/

namespace LicenseDepot.Markup

/-- What is declared about an attribute of an element. -/
structure AttributeRule where
  element : List Char
  name : List Char
  words : Bool
  default : Option (List Char)
  deriving DecidableEq, Repr

/-- What a document type declares. -/
structure Dtd where
  /-- The document is said to stand alone. -/
  standalone : Bool := false
  entities : Entities := []
  rules : List AttributeRule := []
  /-- Some declarations may stand elsewhere. -/
  incomplete : Bool := false
  /-- Declarations still count. -/
  counting : Bool := true
  deriving DecidableEq, Repr

namespace Dtd

/-- Whether references to entities that are not declared are let pass in attribute values. -/
def lenient (d : Dtd) : Bool :=
  d.incomplete && !d.standalone

/-- The document type after a reference to declarations that stand elsewhere, in between its
own. -/
def skipOutside (d : Dtd) : Dtd :=
  { d with incomplete := true, counting := d.standalone }

/-- The rule for an attribute of an element. -/
def rule? (d : Dtd) (element name : List Char) : Option AttributeRule :=
  d.rules.find? fun r => r.element == element && r.name == name

/-- The rules for the attributes of an element that give a value by default. -/
def defaults (d : Dtd) (element : List Char) : List AttributeRule :=
  d.rules.filter fun r => r.element == element && r.default.isSome

/-- The document type with one more entity, unless its name is taken. -/
def addEntity (d : Dtd) (name : Name) (e : Entity) : Dtd :=
  if (predefined.lookup name).isSome || (d.entities.lookup name).isSome then d
  else { d with entities := d.entities ++ [(name, e)] }

/-- The document type with one more rule, unless there is one for the attribute. -/
def addRule (d : Dtd) (r : AttributeRule) : Dtd :=
  if (d.rule? r.element r.name).isSome then d else { d with rules := d.rules ++ [r] }

end Dtd

end LicenseDepot.Markup
