import LicenseDepot.Markup.Decoding
import LicenseDepot.Markup.Doctype.Reader
import LicenseDepot.Markup.Element

/-!
# Documents

A document is a declaration, a document type, which may both be missing, and one root element;
remarks and space may stand between and after them. Reading one gives its root element.
-/

namespace LicenseDepot.Markup

/-- Whether a token begins an element. -/
def Token.beginsElement : Token → Bool
  | .opening _ _ => true
  | .single _ _ => true
  | _ => false

/-- Divides the tokens of content after the end of the first element. `depth` elements are open,
and `done` holds the tokens so far, last one first. -/
def splitRoot (depth : Nat) (done : List Token) : List Token → List Token × List Token
  | [] => (done.reverse, [])
  | t :: ts =>
    match t with
    | .opening _ _ => splitRoot (depth + 1) (t :: done) ts
    | .closing _ =>
      if depth ≤ 1 then ((t :: done).reverse, ts) else splitRoot (depth - 1) (t :: done) ts
    | .single _ _ => if depth = 0 then ((t :: done).reverse, ts) else splitRoot depth (t :: done) ts
    | _ => splitRoot depth (t :: done) ts

/-- The tokens of the root element and those after it. The root element has to be written out and to
lead: before it neither a section without characters may stand nor a reference, even to an entity
that has no text or that would be the element. -/
def divideRoot (tokens : List Token) : Except Malformed (List Token × List Token) :=
  match tokens with
  | [] => .error .nesting
  | t :: _ => if t.beginsElement then .ok (splitRoot 0 [] tokens) else .error .nesting

/-- Whether a token is nothing but space that stands for itself. -/
def Token.isLayout : Token → Bool
  | .data ps => ps.all fun
    | .literal c => isSpace c
    | _ => false
  | _ => false

/-- The keyword of a document type. -/
def doctypeMark : List Char := "<!DOCTYPE".toList

/-- The document type that leads a text, if there is one, and what follows it. -/
def readDoctype [NameLetters] (standalone : Bool) (s : List Char) :
    Except Malformed (Dtd × List Char) :=
  if doctypeMark.isPrefixOf s then
    (Doctype.read standalone (s.drop doctypeMark.length)).map fun (d, rest) => (d, skipRemarks rest)
  else .ok ({ standalone }, s)

/-- The root element of the characters after the declaration of a document. Remarks and space before
it have left no token. -/
def readBody [NameLetters] (standalone : Bool) (s : List Char) : Except Malformed Element := do
  let (d, body) ← readDoctype standalone (skipRemarks s)
  let (root, rest) ← divideRoot (← Token.scan body)
  if rest.all Token.isLayout = false then throw .nesting
  Element.ofEvents (← Event.ofTokens d (Text.Utf8.encode s).length root)

/-- The letters that the names of a document may use. In the texts of its entities, which are kept in
one encoding, names use the common ones. -/
@[reducible] def Declaration.letters (d : Declaration) : NameLetters :=
  if d.encoding.bind BuiltIn.ofName? = some .latin1 then .latin1 else .common

/-- Reads a document. -/
def Element.read (text : List Char) : Except DocumentFault Element := do
  let (declaration, s) ← readCharacters text
  (@readBody declaration.letters declaration.standalone s).mapError .malformed

end LicenseDepot.Markup
