import LicenseDepot.Journal.Event
import LicenseDepot.Journal.Inspect

/-!
# Payloads

An event may carry any data: values of operations, lists and objects of them, and values that a
journal knows nothing about. Whatever is no JSON value is written as its text. A message cannot be
written only if it has to show an integer that is too long for a numeral.
-/

namespace LicenseDepot

open Numeral

/-- The numbers that a value is written with. -/
def Subject.numbers : Subject → List Number
  | .license l => l.terms.maxUsers.toList.map .integer
  | .other j => j.numbers
  | .reference _ | .id _ | .path _ => []

/-- Data that an event carries. -/
inductive Datum
  /-- A value of an operation, or a JSON value. -/
  | subject (s : Subject)
  /-- A value of another kind, by its text. -/
  | shown (text : String)
  | list (items : List Datum)
  | object (members : List (String × Datum))

namespace Datum

mutual

/-- The data as a JSON value. -/
def toJson : Datum → Json
  | .subject s => s.toJson
  | .shown text => .text text
  | .list items => .list (itemsToJson items)
  | .object members => .object (membersToJson members)

/-- The items of a list as JSON values. -/
def itemsToJson : List Datum → List Json
  | [] => []
  | item :: rest => toJson item :: itemsToJson rest

/-- The members of an object as JSON values. -/
def membersToJson : List (String × Datum) → List (String × Json)
  | [] => []
  | (key, value) :: rest => (key, toJson value) :: membersToJson rest

end

mutual

/-- The numbers that the data are written with. -/
def numbers : Datum → List Number
  | .subject s => s.numbers
  | .shown _ => []
  | .list items => numbersOfItems items
  | .object members => numbersOfMembers members

/-- The numbers that the items of a list are written with. -/
def numbersOfItems : List Datum → List Number
  | [] => []
  | item :: rest => numbers item ++ numbersOfItems rest

/-- The numbers that the members of an object are written with. -/
def numbersOfMembers : List (String × Datum) → List Number
  | [] => []
  | (_, value) :: rest => numbers value ++ numbersOfMembers rest

end

end Datum

/-- An event with its payload as it is handed in. -/
structure RawEvent where
  name : String
  correlation : String
  level : String := "INFO"
  time : Number
  payload : List (String × Datum)

namespace RawEvent

/-- The event of a raw event. -/
def event (e : RawEvent) : Event where
  name := e.name
  correlation := e.correlation
  level := e.level
  time := e.time
  data := Datum.membersToJson e.payload

/-- The numbers that the message of a raw event is written with. -/
def numbers (e : RawEvent) : List Number :=
  e.time :: Datum.numbersOfMembers e.payload

/-- The message of a raw event (`log_event`), in the tall layout or on one line, unless a number
cannot be written. -/
def message? (tall : Bool) (e : RawEvent) : Option String :=
  if e.numbers.all Json.isWritable then some (e.event.message tall) else none

end RawEvent

end LicenseDepot
