import LicenseDepot.Markup.Element

/-!
# Writing elements

The one form in which elements are written: no layout, attributes in double quotes, and an element
without text and children as a single tag. In text the three characters that could be read as
markup are escaped, in an attribute value also its quote and the three controls that a reader would
turn into spaces. Elements are written by the base of their name; none that is written is in a
namespace.
-/

namespace LicenseDepot.Markup

/-- A character of text, as it is written. -/
def escapeChar (c : Char) : List Char :=
  if c = '&' then "&amp;".toList
  else if c = '<' then "&lt;".toList
  else if c = '>' then "&gt;".toList
  else [c]

/-- A character of an attribute value, as it is written. -/
def escapeAttributeChar (c : Char) : List Char :=
  if c = '"' then "&quot;".toList
  else if c = '\r' then "&#13;".toList
  else if c = '\n' then "&#10;".toList
  else if c = '\t' then "&#09;".toList
  else escapeChar c

/-- A text, as it is written. -/
def escape (s : List Char) : List Char :=
  s.flatMap escapeChar

/-- An attribute value, as it is written. -/
def escapeAttribute (s : List Char) : List Char :=
  s.flatMap escapeAttributeChar

/-- An attribute, as it is written. -/
def renderAttribute (a : ExpandedName × List Char) : List Char :=
  ' ' :: a.1.base ++ '=' :: '"' :: escapeAttribute a.2 ++ ['"']

/-- An element, as it is written. -/
def Element.render (e : Element) : List Char :=
  let tag := e.name.base
  let front := '<' :: tag ++ e.attributes.flatMap renderAttribute
  if e.text.isEmpty && e.children.isEmpty then front ++ " />".toList
  else front ++ '>' :: escape e.text ++ (e.children.attach.map fun c => c.1.render).flatten
    ++ "</".toList ++ tag ++ ['>']
termination_by sizeOf e
decreasing_by
  have := List.sizeOf_lt_of_mem c.2
  cases e
  simp_all
  omega

end LicenseDepot.Markup
