import LicenseDepot.Numeral.Binary64

/-!
# JSON values

Values of the JSON data format. Objects keep the order of their members. Integers are exact and
told apart from numbers with a fraction or a power of ten, which are those of the double format.
-/

namespace LicenseDepot

open Numeral

/-- A JSON number. -/
inductive Number
  | integer (n : Int)
  | decimal (x : Binary64)
  deriving DecidableEq, Repr

/-- A JSON value. -/
inductive Json
  | null
  | bool (b : Bool)
  | number (x : Number)
  | text (s : String)
  | list (items : List Json)
  | object (members : List (String × Json))

namespace Json

/-- An integer. -/
def integer (n : Int) : Json := .number (.integer n)

/-- A number of the double format. -/
def decimal (x : Binary64) : Json := .number (.decimal x)

/-- The value of a member of an object. -/
def get? (j : Json) (key : String) : Option Json :=
  match j with
  | .object members => members.lookup key
  | _ => none

/-- Members with one more written: in place if its key is known, else after all others. -/
def put (key : String) (value : Json) : List (String × Json) → List (String × Json)
  | [] => [(key, value)]
  | (k, v) :: rest => if k = key then (key, value) :: rest else (k, v) :: put key value rest

/-- The object of some members; the last value of a key counts, and its first place. -/
def ofMembers (members : List (String × Json)) : Json :=
  .object (members.foldl (fun ms m => put m.1 m.2 ms) [])

mutual

/-- The numbers in a value, in order. -/
def numbers : Json → List Number
  | .number x => [x]
  | .list items => numbersOfItems items
  | .object members => numbersOfMembers members
  | .null | .bool _ | .text _ => []

/-- The numbers in the items of a list. -/
def numbersOfItems : List Json → List Number
  | [] => []
  | item :: rest => numbers item ++ numbersOfItems rest

/-- The numbers in the members of an object. -/
def numbersOfMembers : List (String × Json) → List Number
  | [] => []
  | (_, value) :: rest => numbers value ++ numbersOfMembers rest

end

/-- A text, or null if there is none. -/
def ofText? : Option String → Json
  | some s => .text s
  | none => .null

end Json

end LicenseDepot
