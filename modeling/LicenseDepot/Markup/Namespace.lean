import LicenseDepot.Markup.Name

/-!
# Namespaces

An attribute named `xmlns` binds the default namespace of its element, and one named `xmlns:p` the
namespace of the qualifier `p`. Bindings hold for the element and all that is inside it. The
qualifier `xml` is bound from the start, and neither it nor `xmlns` can be bound to anything else.
-/

namespace LicenseDepot.Markup

/-- The qualifiers in force and the namespaces they stand for, innermost first; no qualifier stands
for the default namespace, which an empty name takes away. -/
abbrev Scope := List (Option Name × List Char)

namespace Scope

/-- The namespace of the qualifier `xml`. -/
def xmlSpace : List Char := "http://www.w3.org/XML/1998/namespace".toList

/-- The namespace of the qualifier `xmlns`. -/
def xmlnsSpace : List Char := "http://www.w3.org/2000/xmlns/".toList

/-- The word that binds namespaces. -/
def binder : Name := "xmlns".toList

/-- The qualifiers in force outside of the root element. -/
def outermost : Scope := [(some "xml".toList, xmlSpace)]

/-- The qualifier that an attribute binds, if it binds one. -/
def bound? (q : QName) : Option (Option Name) :=
  if q = ⟨none, binder⟩ then some none
  else if q.qualifier = some binder then some (some q.base)
  else none

/-- Whether a qualifier may be bound to a namespace. -/
def isBindable (qualifier : Option Name) (uri : List Char) : Bool :=
  !(uri.isEmpty && qualifier.isSome) && qualifier != some binder && !uri.contains '\x7d'
    && (qualifier == some "xml".toList) == (uri == xmlSpace) && uri != xmlnsSpace

/-- The scope inside an element with some attributes, if they bind namespaces by the rules. -/
def enter? (scope : Scope) (attributes : List (QName × List Char)) : Option Scope :=
  attributes.foldlM (fun scope (q, value) =>
    match bound? q with
    | none => some scope
    | some qualifier =>
      if isBindable qualifier value then some ((qualifier, value) :: scope) else none)
    scope

/-- The name of an element, expanded. -/
def element? (scope : Scope) (q : QName) : Option ExpandedName :=
  match scope.lookup q.qualifier with
  | some uri => some ⟨if uri.isEmpty then none else some uri, q.base⟩
  | none => if q.qualifier.isNone then some ⟨none, q.base⟩ else none

/-- The name of an attribute, expanded; without a qualifier it is in no namespace. -/
def attribute? (scope : Scope) (q : QName) : Option ExpandedName :=
  if q.qualifier.isNone then some ⟨none, q.base⟩ else element? scope q

end Scope

end LicenseDepot.Markup
