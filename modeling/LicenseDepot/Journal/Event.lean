import LicenseDepot.Json.Writer

/-!
# Records and events

A record is a line of a journal: who speaks, how grave it is, and what is said. An event is a record
whose message is a JSON object, so that machines can read it. Whatever its data hold, the message
is one line, unless the tall layout is asked for.
-/

namespace LicenseDepot

open Numeral

/-- How grave a record is; graver ones rank higher. -/
structure Level where
  rank : Int
  deriving DecidableEq, Repr

namespace Level

def debug : Level := ⟨10⟩

def info : Level := ⟨20⟩

def warning : Level := ⟨30⟩

def error : Level := ⟨40⟩

def critical : Level := ⟨50⟩

/-- The levels that have a word of their own. -/
def words : List (Level × String) :=
  [(critical, "CRITICAL"), (error, "ERROR"), (warning, "WARNING"), (info, "INFO"),
    (debug, "DEBUG"), (⟨0⟩, "NOTSET")]

/-- What a level is called (`getLevelName`); one without a word of its own is called by its rank. -/
def toText (l : Level) : String :=
  (words.lookup l).getD s!"Level {l.rank}"

/-- Further words for levels. -/
def aliases : List (String × Level) :=
  [("FATAL", critical), ("WARN", warning)]

/-- The level of a word. -/
def ofText? (word : String) : Option Level :=
  (words.map Prod.swap ++ aliases).lookup word

/-- The report of a word that is no level. -/
def unknownMessage (word : String) : String :=
  s!"Unknown level: {Text.quoted word}"

end Level

/-- A part of the program that speaks in a journal. -/
inductive Source
  | store
  | catalog
  | events
  deriving DecidableEq, Repr

/-- What a journal calls a source. -/
def Source.logger : Source → String
  | .store => "licensing.modules.store.infrastructure.filesystem_store"
  | .catalog => "licensing.app"
  | .events => "licensing"

/-- The part of the program that a record of a source comes from. -/
def Source.place : Source → String
  | .store => "store"
  | .catalog => "catalog"
  | .events => "events"

/-- An event, before it is laid out. -/
structure Event where
  name : String
  correlation : String
  level : String := "INFO"
  time : Number
  data : List (String × Json)

namespace Event

/-- The event as an object, the `log_entry` of `log_event`. -/
def toJson (e : Event) : Json :=
  .object [("timestamp", .number e.time), ("level", .text e.level), ("event", .text e.name),
    ("correlation_id", .text e.correlation), ("data", .ofMembers e.data)]

/-- The message of the record of an event (`log_event`), in the tall layout or on one line. -/
def message (tall : Bool) (e : Event) : String :=
  if tall then e.toJson.pretty else e.toJson.compact

/-- The level of the record of an event: events that report an error are errors, and all others
are for debugging. -/
def recordLevel (e : Event) : Level :=
  if e.level = "ERROR" then .error else .debug

end Event

/-- Something that is said while an operation runs. -/
inductive Notice
  /-- A line of the journal. -/
  | record (source : Source) (level : Level) (message : String)
  /-- An event. -/
  | event (e : Event)
  /-- A line for the user. -/
  | output (line : String)
  /-- A line for the user about something that went wrong. -/
  | complaint (line : String)

end LicenseDepot
