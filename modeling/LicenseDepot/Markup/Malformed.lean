/-!
# Faults of a document

A document that is not well formed is refused for the first rule that it breaks. All these faults
are one kind of failure to the outside; the reason is kept for the report.
-/

namespace LicenseDepot.Markup

/-- The rule that a document breaks. -/
inductive Malformed
  /-- The document declaration is not written as one. -/
  | declaration
  /-- The declared encoding does not fit the bytes of the document. -/
  | encoding
  /-- A character is none that a document may hold. -/
  | character
  /-- A tag, comment, instruction or section is not written as one. -/
  | token
  /-- An attribute occurs twice in a tag. -/
  | duplicateAttribute
  /-- A reference is not written as one, or to a character that no document may hold. -/
  | reference
  /-- An entity is not declared. -/
  | undefinedEntity
  /-- An entity cannot stand where it is referred to. -/
  | misplacedEntity
  /-- The text of an entity opens or closes more than itself. -/
  | unbalancedEntity
  /-- The text of an entity refers to itself. -/
  | recursiveEntity
  /-- The entities of the document blow it up beyond measure. -/
  | amplification
  /-- A namespace is bound or used against the rules. -/
  | namespaceRule
  /-- The document type declaration is not written as one. -/
  | doctype
  /-- Tags do not match, or there is not exactly one root element. -/
  | nesting
  deriving DecidableEq, Repr

/-- What the report says of a broken rule. -/
def Malformed.message : Malformed → String
  | .declaration => "declaración del documento no válida"
  | .encoding => "la codificación declarada no corresponde al documento"
  | .character => "carácter no permitido"
  | .token => "marca no válida"
  | .duplicateAttribute => "atributo duplicado"
  | .reference => "referencia no válida"
  | .undefinedEntity => "entidad no declarada"
  | .misplacedEntity => "entidad fuera de lugar"
  | .unbalancedEntity => "entidad no balanceada"
  | .recursiveEntity => "entidad recursiva"
  | .amplification => "expansión de entidades excesiva"
  | .namespaceRule => "espacio de nombres no válido"
  | .doctype => "tipo de documento no válido"
  | .nesting => "etiquetas no balanceadas"

end LicenseDepot.Markup
