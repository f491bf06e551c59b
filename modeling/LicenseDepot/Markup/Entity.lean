import LicenseDepot.Markup.Piece
import LicenseDepot.Text.Utf8

/-!
# Entities

A document type may declare entities: names for texts that stand inside it, for texts that stand
elsewhere, and for things that are no text. Only the first can be referred to. An entity must not
lead back to itself; since a chain of entities without repetition is no longer than the list of all
of them, a depth of that many steps decides whether one does. Entities that would blow a document
up beyond measure are refused before they are expanded: `weights` adds up the bytes that the
expansion of each would take.
-/

namespace LicenseDepot.Markup

/-- What a declared entity stands for. -/
inductive Entity
  /-- A text, in which references to characters are resolved and those to entities are not. -/
  | internal (text : List Char)
  /-- A text that is kept elsewhere. -/
  | external
  /-- Something that is no text. -/
  | unparsed
  deriving DecidableEq, Repr

/-- The declared entities of a document, each name once. -/
abbrev Entities := List (Name × Entity)

namespace Entities

/-- The names that a text refers to. `inside` holds the name being read, last character first. -/
def namesIn (inside : Option (List Char)) : List Char → List Name
  | [] => []
  | c :: s =>
    if c = '&' then namesIn (some []) s
    else
      match inside with
      | none => namesIn none s
      | some name =>
        if c = ';' then name.reverse :: namesIn none s else namesIn (some (c :: name)) s

/-- The bytes of the own text of an entity. -/
def ownWeight : Entity → Nat
  | .internal text => (Text.Utf8.encode text).length
  | _ => 0

/-- The entities that the text of an entity refers to. -/
def references : Entity → List Name
  | .internal text => namesIn none text
  | _ => []

/-- The bytes of entity text that the expansion of each entity takes, down to a depth. -/
def weights (entities : Entities) : (depth : Nat) → List (Name × Nat)
  | 0 => entities.map fun (name, e) => (name, ownWeight e)
  | depth + 1 =>
    let below := weights entities depth
    entities.map fun (name, e) =>
      (name, (references e).foldl (fun total n => total + (below.lookup n).getD 0) (ownWeight e))

/-- The bytes that a document may take with its entities expanded, whatever its own length. -/
def freeExpansion : Nat := 8388608

/-- How many times its own length a longer document may take. -/
def maxAmplification : Nat := 100

/-- Whether references to some names are affordable in a document of a length. -/
def affordable (entities : Entities) (length : Nat) (names : List Name) : Bool :=
  let table := weights entities entities.length
  let total := names.foldl (fun total n => total + (table.lookup n).getD 0) length
  decide (total < freeExpansion) || decide (total ≤ maxAmplification * length)

end Entities

/-- The names of the entities among some pieces. -/
def entityNames (ps : List Piece) : List Name :=
  ps.filterMap fun
    | .entity name => some name
    | _ => none

/-- What one piece of an attribute value contributes to it: space of any kind that stands for
itself is a space, and an entity contributes what `expand` makes of its text. An entity that is
not declared contributes nothing in a document whose declarations may stand elsewhere. -/
def valueOfPiece (entities : Entities) (lenient : Bool)
    (expand : List Char → Except Malformed (List Char)) : Piece → Except Malformed (List Char)
  | .literal c => .ok [if isSpace c then ' ' else c]
  | .character c => .ok [c]
  | .entity name =>
    match predefined.lookup name with
    | some c => .ok [c]
    | none =>
      match entities.lookup name with
      | none => if lenient then .ok [] else .error .undefinedEntity
      | some (.internal text) => expand text
      | some _ => .error .misplacedEntity

/-- The value that the pieces of an attribute spell, with entities expanded down to a depth. -/
def expandValue (entities : Entities) (lenient : Bool) :
    (depth : Nat) → List Piece → Except Malformed (List Char)
  | 0, ps => do
    let parts ← ps.mapM (valueOfPiece entities lenient fun _ => .error .recursiveEntity)
    return parts.flatten
  | depth + 1, ps => do
    let parts ← ps.mapM (valueOfPiece entities lenient fun text => do
      if text.contains '<' then throw .token
      expandValue entities lenient depth (← pieces text))
    return parts.flatten

/-- A value without space at its ends and with one space between its words. `gap` says that space
has been passed since the last word and `started` that there was one. -/
def collapseSpace (started gap : Bool) : List Char → List Char
  | [] => []
  | c :: s =>
    if c = ' ' then collapseSpace started true s
    else if started && gap then ' ' :: c :: collapseSpace true false s
    else c :: collapseSpace true false s

/-- The value of an attribute; where its type calls for words, space is collapsed. -/
def attributeValue (entities : Entities) (lenient words : Bool) (ps : List Piece) :
    Except Malformed (List Char) :=
  (expandValue entities lenient entities.length ps).map fun s =>
    if words then collapseSpace false false s else s

end LicenseDepot.Markup
