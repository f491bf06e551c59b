import LicenseDepot.Markup.Doctype.Basic
import LicenseDepot.Markup.Doctype.Token

/-!
# The grammar of declarations

Which tokens make a declaration of each kind, and what the declaration adds to the document type.
Content models and notations add nothing and are only checked.
-/

namespace LicenseDepot.Markup.Doctype

/-- Whether a character may stand in a public identifier. -/
def isPublicChar (c : Char) : Bool :=
  c.isAlphanum || " \n\r-'()+,./:=?;!*#@$_%".toList.contains c

/-- Whether a text is a public identifier. -/
def isPublicId (s : List Char) : Bool :=
  s.all isPublicChar

/-- Whether tokens name a place outside the document: a system identifier, with or without a
public one before it. What follows them is left over. -/
def afterExternalId? : List Mark → Option (List Mark)
  | .name word :: .literal id :: .literal _ :: rest =>
    if word = "PUBLIC".toList ∧ isPublicId id then some rest else none
  | .name word :: .literal _ :: rest => if word = "SYSTEM".toList then some rest else none
  | _ => none

/-- The text that the literal of an entity stands for: references to characters are resolved and
those to entities are kept. References to parameters have no place in it. -/
def entityText [NameLetters] (literal : List Char) : Except Malformed (List Char) :=
  if literal.contains '%' then .error .doctype
  else (pieces literal).map fun ps => ps.flatMap fun
    | .literal c => [c]
    | .character c => [c]
    | .entity name => '&' :: name ++ [';']

/-- What the definition of an entity says, after its name. -/
inductive Definition
  | value (literal : List Char)
  | external
  | unparsed
  deriving DecidableEq, Repr

/-- The definition that tokens make. -/
def Definition.ofMarks? : List Mark → Option Definition
  | [.literal s] => some (.value s)
  | marks =>
    match afterExternalId? marks with
    | some [] => some .external
    | some [.name word, .name _] => if word = "NDATA".toList then some .unparsed else none
    | _ => none

/-- The document type after the declaration of an entity. A parameter entity adds nothing. -/
def declareEntity [NameLetters] (d : Dtd) (marks : List Mark) : Except Malformed Dtd :=
  match marks with
  | .percent :: .name _ :: rest =>
    match Definition.ofMarks? rest with
    | some (.value s) => if d.counting then (entityText s).map fun _ => d else .ok d
    | some .external => .ok d
    | _ => .error .doctype
  | .name name :: rest =>
    match Definition.ofMarks? rest with
    | some (.value s) =>
      if d.counting then (entityText s).map fun text => d.addEntity name (.internal text)
      else .ok d
    | some .external => .ok (if d.counting then d.addEntity name .external else d)
    | some .unparsed => .ok (if d.counting then d.addEntity name .unparsed else d)
    | none => .error .doctype
  | _ => .error .doctype

/-- Whether tokens make the declaration of a notation. -/
def isNotation : List Mark → Bool
  | .name _ :: marks =>
    match afterExternalId? marks, marks with
    | some [], _ => true
    | _, [.name word, .literal id] => word == "PUBLIC".toList && isPublicId id
    | _, _ => false
  | _ => false

/-- Whether tokens go on with names between bars and end a mixed model. -/
def isMixed : List Mark → Bool
  | [.closing r] => r == .once || r == .anyNumber
  | marks => names marks
where
  /-- Whether tokens are names, each after a bar, and the end that allows any number of them. -/
  names : List Mark → Bool
    | [.closing r] => r == .anyNumber
    | .bar :: .name _ :: rest => names rest
    | .bar :: .qualified _ :: rest => names rest
    | _ => false

/-- Whether tokens go on with a model of elements. `groups` holds for each open group the mark that
separates its parts, once one has been seen, and `part` says that a part has to follow. -/
def isModel (groups : List (Option Mark)) (part : Bool) : List Mark → Bool
  | [] => false
  | m :: rest =>
    if part then
      match m with
      | .opening => isModel (none :: groups) true rest
      | .name _ | .qualified _ | .repeated _ _ => isModel groups false rest
      | _ => false
    else
      match groups, m with
      | _ :: outer, .closing _ => if outer.isEmpty then rest.isEmpty else isModel outer false rest
      | separator :: outer, .comma =>
        separator != some .bar && isModel (some .comma :: outer) true rest
      | separator :: outer, .bar =>
        separator != some .comma && isModel (some .bar :: outer) true rest
      | _, _ => false

/-- Whether a token is the name of an element or attribute. -/
def nameOf? : Mark → Option (List Char)
  | .name s => some s
  | .qualified s => some s
  | _ => none

/-- Whether tokens make the declaration of an element. -/
def isElement : List Mark → Bool
  | m :: rest =>
    (nameOf? m).isSome &&
      match rest with
      | [.name word] => word == "EMPTY".toList || word == "ANY".toList
      | .opening :: .keyword word :: rest => word == "PCDATA".toList && isMixed rest
      | .opening :: rest => isModel [none] true rest
      | _ => false
  | [] => false

/-- Where the reading of an attribute list stands. -/
inductive ListState
  /-- Before the name of an attribute. -/
  | start
  /-- Before its type. -/
  | type (name : List Char)
  /-- Before the list of its notations. -/
  | notations (name : List Char)
  /-- Before a value of a list of names or, if `any` holds, of words. -/
  | value (name : List Char) (any : Bool)
  /-- After a value of such a list. -/
  | separator (name : List Char) (any : Bool)
  /-- Before its default. -/
  | default (name : List Char) (words : Bool)
  /-- Before a value that cannot be changed. -/
  | fixed (name : List Char) (words : Bool)
  deriving DecidableEq, Repr

/-- The attribute types that call for words. -/
def wordTypes : List Name :=
  ["ID", "IDREF", "IDREFS", "ENTITY", "ENTITIES", "NMTOKEN", "NMTOKENS"].map String.toList

/-- An attribute as its list declares it. -/
structure ListedAttribute where
  name : List Char
  words : Bool
  default : Option (List Char)

/-- What a token of an attribute list leads to, and the attribute that it completes. -/
def ListState.step? (state : ListState) (m : Mark) :
    Option (ListState × Option ListedAttribute) :=
  match state, m with
  | .start, .name s => some (.type s, none)
  | .start, .qualified s => some (.type s, none)
  | .type a, .name word =>
    if word = "CDATA".toList then some (.default a false, none)
    else if word = "NOTATION".toList then some (.notations a, none)
    else if wordTypes.contains word then some (.default a true, none)
    else none
  | .type a, .opening => some (.value a true, none)
  | .notations a, .opening => some (.value a false, none)
  | .value a any, .name _ => some (.separator a any, none)
  | .value a true, .qualified _ => some (.separator a true, none)
  | .value a true, .word _ => some (.separator a true, none)
  | .separator a any, .bar => some (.value a any, none)
  | .separator a _, .closing .once => some (.default a true, none)
  | .default a words, .keyword word =>
    if word = "IMPLIED".toList ∨ word = "REQUIRED".toList then
      some (.start, some ⟨a, words, none⟩)
    else if word = "FIXED".toList then some (.fixed a words, none)
    else none
  | .default a words, .literal s => some (.start, some ⟨a, words, some s⟩)
  | .fixed a words, .literal s => some (.start, some ⟨a, words, some s⟩)
  | _, _ => none

/-- The attributes that the tokens of a list declare. -/
def listed? (state : ListState) : List Mark → Option (List ListedAttribute)
  | [] => if state = .start then some [] else none
  | m :: rest =>
    (state.step? m).bind fun (next, a) => (listed? next rest).map (a.toList ++ ·)

/-- The value that an attribute has by default, with entities expanded. -/
def defaultValue [NameLetters] (d : Dtd) (words : Bool) (literal : List Char) :
    Except Malformed (List Char) := do
  if literal.contains '<' then throw .token
  let ps ← pieces literal
  if d.entities.affordable literal.length (entityNames ps) = false then throw .amplification
  attributeValue d.entities d.lenient words ps

/-- The document type after one more attribute of an element has been declared. -/
def declareAttribute [NameLetters] (element : List Char) (d : Dtd) (a : ListedAttribute) :
    Except Malformed Dtd :=
  match a.default with
  | none => .ok (d.addRule ⟨element, a.name, a.words, none⟩)
  | some literal =>
    (defaultValue d a.words literal).map fun v => d.addRule ⟨element, a.name, a.words, some v⟩

/-- The document type after the declaration of the attributes of an element. -/
def declareAttributes [NameLetters] (d : Dtd) (marks : List Mark) : Except Malformed Dtd :=
  match marks with
  | [] => .error .doctype
  | m :: rest =>
    match nameOf? m, listed? .start rest with
    | some element, some attributes =>
      if d.counting then attributes.foldlM (declareAttribute element) d else .ok d
    | _, _ => .error .doctype

/-- The document type after a declaration. -/
def declare [NameLetters] (d : Dtd) (word : List Char) (marks : List Mark) : Except Malformed Dtd :=
  if word = "ENTITY".toList then declareEntity d marks
  else if word = "ATTLIST".toList then declareAttributes d marks
  else if word = "ELEMENT".toList then if isElement marks then .ok d else .error .doctype
  else if word = "NOTATION".toList then if isNotation marks then .ok d else .error .doctype
  else .error .doctype

end LicenseDepot.Markup.Doctype
