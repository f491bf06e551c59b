import LicenseDepot.Markup.Event
import LicenseDepot.Markup.Namespace

/-!
# Elements

An element as a reader of documents sees it: its name, its attributes, the text before its first
child, and its children. Text between and after children is layout and is not kept. A list of
events is one element when every end matches the element begun last and nothing is left open.
-/

namespace LicenseDepot.Markup

/-- An element of a document. -/
structure Element where
  name : ExpandedName
  attributes : List (ExpandedName × List Char) := []
  text : List Char := []
  children : List Element := []

namespace Element

/-- The children of a name in no namespace. -/
def childrenNamed (e : Element) (name : String) : List Element :=
  e.children.filter fun c => c.name == .plain name.toList

/-- The text of the first child of a name. -/
def childText? (e : Element) (name : String) : Option (List Char) :=
  (e.childrenNamed name).head?.map text

/-- The value of an attribute in no namespace. -/
def attribute? (e : Element) (name : String) : Option (List Char) :=
  e.attributes.lookup (.plain name.toList)

end Element

/-- An element that has begun and not ended. Text and children come last one first. -/
structure OpenElement where
  tag : List Char
  scope : Scope
  name : ExpandedName
  attributes : List (ExpandedName × List Char)
  text : List Char
  children : List Element

/-- The element that ends. -/
def OpenElement.finish (o : OpenElement) : Element :=
  ⟨o.name, o.attributes, o.text.reverse, o.children.reverse⟩

/-- The elements that have begun and not ended, innermost first, and the root once it has ended. -/
structure Builder where
  stack : List OpenElement
  root : Option Element

namespace Builder

/-- Before the first event. -/
def empty : Builder := ⟨[], none⟩

/-- The element that begins in a scope. -/
def begin? (scope : Scope) (q : QName) (attributes : List (QName × List Char)) :
    Except Malformed OpenElement :=
  match scope.enter? attributes with
  | none => .error .namespaceRule
  | some scope =>
    let proper := attributes.filter fun a => (Scope.bound? a.1).isNone
    match scope.element? q, proper.mapM fun a => (scope.attribute? a.1).map (·, a.2) with
    | some name, some expanded =>
      if allDistinct (expanded.map Prod.fst) then .ok ⟨q.chars, scope, name, expanded, [], []⟩
      else .error .duplicateAttribute
    | _, _ => .error .namespaceRule

/-- The scope of the innermost element. -/
def scope (b : Builder) : Scope :=
  match b.stack with
  | [] => .outermost
  | o :: _ => o.scope

/-- Takes an event. -/
def accept (b : Builder) (e : Event) : Except Malformed Builder :=
  match e with
  | .char c =>
    match b.stack with
    | [] => .error .nesting
    | o :: rest =>
      .ok (if o.children.isEmpty then { b with stack := { o with text := c :: o.text } :: rest }
        else b)
  | .start q attributes =>
    if b.stack.isEmpty && b.root.isSome then .error .nesting
    else (begin? b.scope q attributes).map fun o => { b with stack := o :: b.stack }
  | .finish tag =>
    match b.stack with
    | [] => .error .nesting
    | o :: rest =>
      if o.tag = tag then
        match rest with
        | [] => .ok ⟨[], some o.finish⟩
        | p :: outer =>
          .ok { b with stack := { p with children := o.finish :: p.children } :: outer }
      else .error .nesting

end Builder

/-- The element that some events make. -/
def Element.ofEvents (es : List Event) : Except Malformed Element :=
  (es.foldlM Builder.accept Builder.empty).bind fun b =>
    match b.stack, b.root with
    | [], some e => .ok e
    | _, _ => .error .nesting

end LicenseDepot.Markup
