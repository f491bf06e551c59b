import LicenseDepot.Markup.Doctype.Basic
import LicenseDepot.Markup.Token

/-!
# Events of a document

What the content of a document says once its entities are expanded: elements that begin and end,
and characters in between. Attributes have their values, and those that the document type gives by
default are there as well. The text of an entity has to be content by itself: it ends all elements
that it begins and no others.
-/

namespace LicenseDepot.Markup

/-- An event of a document. -/
inductive Event
  | char (c : Char)
  | start (name : QName) (attributes : List (QName × List Char))
  | finish (name : List Char)
  deriving DecidableEq, Repr

/-- Whether events end all elements that they begin and no others, with `depth` elements begun
before them. -/
def isBalanced (depth : Nat) : List Event → Bool
  | [] => depth == 0
  | .char _ :: es => isBalanced depth es
  | .start _ _ :: es => isBalanced (depth + 1) es
  | .finish _ :: es => depth != 0 && isBalanced (depth - 1) es

/-- Whether no member of a list occurs in it twice. -/
def allDistinct {α : Type} [BEq α] : List α → Bool
  | [] => true
  | a :: as => !as.contains a && allDistinct as

/-- The attributes of an element with their values, and after them those that the document type
gives by default. -/
def attributesOf (d : Dtd) (element : QName) (raw : List RawAttribute) :
    Except Malformed (List (QName × List Char)) := do
  if allDistinct (raw.map RawAttribute.name) = false then throw .duplicateAttribute
  let written ← raw.mapM fun a => do
    let words := ((d.rule? element.chars a.name.chars).map AttributeRule.words).getD false
    return (a.name, ← attributeValue d.entities d.lenient words a.value)
  let missing := (d.defaults element.chars).filter fun r =>
    !raw.any fun a => a.name.chars == r.name
  let added ← missing.mapM fun r =>
    -- The name has been read already, so all that is asked here is where it is divided.
    match @QName.ofChars? .latin1 r.name with
    | some name => .ok (name, r.default.getD [])
    | none => .error .namespaceRule
  return written ++ added

/-- The events of one piece of character data. An entity contributes what `expand` makes of its
text. -/
def eventsOfPiece (d : Dtd) (expand : List Char → Except Malformed (List Event)) :
    Piece → Except Malformed (List Event)
  | .literal c => .ok [.char c]
  | .character c => .ok [.char c]
  | .entity name =>
    match predefined.lookup name with
    | some c => .ok [.char c]
    | none =>
      match d.entities.lookup name with
      | none => .error .undefinedEntity
      | some (.internal text) => expand text
      | some _ => .error .misplacedEntity

/-- The events of one token. -/
def eventsOfToken (d : Dtd) (expand : List Char → Except Malformed (List Event)) :
    Token → Except Malformed (List Event)
  | .data ps => (ps.mapM (eventsOfPiece d expand)).map List.flatten
  | .cdata text => .ok (text.map .char)
  | .opening name raw => (attributesOf d name raw).map fun as => [.start name as]
  | .single name raw => (attributesOf d name raw).map fun as => [.start name as, .finish name.chars]
  | .closing name => .ok [.finish name]

/-- The events of tokens, with entities expanded down to a depth. -/
def eventsOfTokens (d : Dtd) : (depth : Nat) → List Token → Except Malformed (List Event)
  | 0, ts => (ts.mapM (eventsOfToken d fun _ => .error .recursiveEntity)).map List.flatten
  | depth + 1, ts =>
    (ts.mapM (eventsOfToken d fun text => do
      let es ← eventsOfTokens d depth (← Token.scan text)
      if isBalanced 0 es then return es else throw .unbalancedEntity)).map List.flatten

/-- The entities that a token refers to. -/
def Token.entityNames : Token → List Name
  | .data ps => Markup.entityNames ps
  | .opening _ raw => raw.flatMap fun a => Markup.entityNames a.value
  | .single _ raw => raw.flatMap fun a => Markup.entityNames a.value
  | _ => []

/-- The events of the content of a document of a length in bytes. -/
def Event.ofTokens (d : Dtd) (length : Nat) (ts : List Token) : Except Malformed (List Event) :=
  if d.entities.affordable length (ts.flatMap Token.entityNames) then
    eventsOfTokens d d.entities.length ts
  else .error .amplification

end LicenseDepot.Markup
