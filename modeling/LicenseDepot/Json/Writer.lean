import LicenseDepot.Json.Basic
import LicenseDepot.Numeral.Integer
import LicenseDepot.Numeral.Shortest

/-!
# Writing JSON

A value is written on one line, with a space after each comma and colon, or in the tall layout, with
each item on a line of its own. Both use characters from the space to the tilde only: everything
else in a text is escaped, past the sixteenth bit as two surrogates, so no text can end a line.
-/

namespace LicenseDepot.Json

open Text Numeral

/-- The escape of a unit of sixteen bits. -/
def escapeUnit (n : Nat) : List Char :=
  '\\' :: 'u' :: hex 4 n

/-- One character of a text, as it is written. -/
def writeChar (c : Char) : List Char :=
  if c = '"' then "\\\"".toList
  else if c = '\\' then "\\\\".toList
  else if c = '\n' then "\\n".toList
  else if c = '\r' then "\\r".toList
  else if c = '\t' then "\\t".toList
  else if c = '\x0c' then "\\f".toList
  else if c = '\x08' then "\\b".toList
  else if 0x20 ≤ c.toNat ∧ c.toNat < 0x7F then [c]
  else if c.toNat < 0x10000 then escapeUnit c.toNat
  else
    let n := c.toNat - 0x10000
    escapeUnit (0xD800 + n / 0x400) ++ escapeUnit (0xDC00 + n % 0x400)

/-- A text, as it is written. -/
def writeText (s : String) : List Char :=
  '"' :: s.toList.flatMap writeChar ++ ['"']

/-- A number, as it is written. -/
def writeNumber : Number → List Char
  | .integer n => Integer.digits n
  | .decimal x => x.chars

/-- Whether a number has a numeral: an integer may be too long for one. -/
def isWritable : Number → Bool
  | .integer n => Integer.isWritable n
  | .decimal _ => true

/-- The space around the items of a list or an object. -/
structure Spacing where
  /-- Before the first item, inside so many lists and objects. -/
  front : Nat → List Char
  /-- Between two items. -/
  between : Nat → List Char
  /-- After the last item. -/
  back : Nat → List Char

/-- All on one line. -/
def oneLine : Spacing := ⟨fun _ => [], fun _ => [' '], fun _ => []⟩

/-- A new line, indented by four spaces for each list or object around. -/
def newLine (depth : Nat) : List Char :=
  '\n' :: List.replicate (4 * depth) ' '

/-- Each item on a line of its own. -/
def tall : Spacing := ⟨fun d => newLine (d + 1), fun d => newLine (d + 1), newLine⟩

mutual

/-- A value inside `depth` lists and objects, as it is written. -/
def writeAt (sp : Spacing) (depth : Nat) : Json → List Char
  | .list (item :: rest) =>
    '[' :: sp.front depth ++ writeAt sp (depth + 1) item ++ writeItems sp depth rest
      ++ sp.back depth ++ [']']
  | .object ((key, value) :: rest) =>
    '\x7b' :: sp.front depth ++ writeText key ++ ": ".toList ++ writeAt sp (depth + 1) value
      ++ writeMembers sp depth rest ++ sp.back depth ++ ['\x7d']
  | .null => "null".toList
  | .bool b => (if b then "true" else "false").toList
  | .number x => writeNumber x
  | .text s => writeText s
  | .list [] => "[]".toList
  | .object [] => "\x7b\x7d".toList

/-- The items of a list after the first one, each after a comma. -/
def writeItems (sp : Spacing) (depth : Nat) : List Json → List Char
  | [] => []
  | item :: rest =>
    ',' :: sp.between depth ++ writeAt sp (depth + 1) item ++ writeItems sp depth rest

/-- The members of an object after the first one, each after a comma. -/
def writeMembers (sp : Spacing) (depth : Nat) : List (String × Json) → List Char
  | [] => []
  | (key, value) :: rest =>
    ',' :: sp.between depth ++ writeText key ++ ": ".toList ++ writeAt sp (depth + 1) value
      ++ writeMembers sp depth rest

end

/-- A value on one line. -/
def compact (j : Json) : String :=
  String.ofList (writeAt oneLine 0 j)

/-- A value in the tall layout. -/
def pretty (j : Json) : String :=
  String.ofList (writeAt tall 0 j)

end LicenseDepot.Json
