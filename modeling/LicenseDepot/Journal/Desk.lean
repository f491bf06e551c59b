import LicenseDepot.Files.Access
import LicenseDepot.Journal.Event

/-!
# Where records go

A desk passes records to its handlers, which write them to the console or to a file. Setting it up
opens a file and puts two handlers in the place of all others; if the file cannot be opened, nothing
changes. The file takes every record from the level for debugging up, the console those of at least
the level asked for. What is already in a file stays there.
-/

namespace LicenseDepot

open Text

/-- A record with everything that its lines show. -/
structure Entry where
  time : String
  level : Level
  logger : String
  /-- The part of the program that made the record. -/
  place : String
  message : String

namespace Entry

/-- The line of a record on the console (`console_formatter`); the level takes up eight columns. -/
def consoleLine (e : Entry) : String :=
  let level := e.level.toText ++ String.ofList (List.replicate (8 - e.level.toText.length) ' ')
  s!"{e.time} | {level} | {e.logger} | {e.message}\n"

/-- The line of a record in a file (`file_formatter`). -/
def fileLine (e : Entry) : String :=
  s!"{e.time} | {e.level.toText} | {e.logger} | {e.place} | {e.message}\n"

end Entry

/-- Where a handler writes (`StreamHandler` and `FileHandler`). -/
inductive Sink
  | console
  | file (p : Path)
  deriving DecidableEq, Repr

/-- What takes records from a level up and writes their lines. -/
structure Handler where
  threshold : Level
  sink : Sink
  deriving DecidableEq, Repr

/-- Where records go, and where they have gone. -/
structure Desk where
  console : List String
  disk : Disk
  /-- The least level of the records that are passed on. -/
  threshold : Level
  handlers : List Handler

/-- The path from the root that a path stands for by its names alone (`abspath`): two points take
away the name before them, whatever that name leads to. -/
def Path.absolute (here : Location) (p : Path) : Path :=
  let follow (names : List String) (part : String) :=
    if part = ".." then names.dropLast else names ++ [part]
  match p.anchor with
  | .here => ⟨.root, p.parts.foldl follow here⟩
  | anchor => ⟨anchor, p.parts.foldl follow []⟩

namespace Desk

/-- The file that records go to unless another one is named. -/
def defaultFile : String := "licensing.log"

/-- The file that is used: the one asked for, or else the one of the environment, or else the
default one. An empty name asks for nothing. -/
def chosenFile (asked environment : Option String) : String :=
  match asked with
  | none | some "" => environment.getD defaultFile
  | some file => file

/-- Writes a text at the end of a file, and makes the file if it is not there. -/
def append (d : Disk) (p : Path) (text : String) : Except AccessFault Disk :=
  match d.read p with
  | .ok content => d.write p (content ++ Utf8.encode text.toList)
  | .error _ => d.write p (Utf8.encode text.toList)

/-- Gives a record to a handler. What cannot be written is lost. -/
def pass (e : Entry) (desk : Desk) (h : Handler) : Desk :=
  if e.level.rank < h.threshold.rank then desk
  else
    match h.sink with
    | .console => { desk with console := desk.console ++ [e.consoleLine] }
    | .file p => { desk with disk := (append desk.disk p e.fileLine).toOption.getD desk.disk }

/-- Takes a record and gives it to every handler, unless its level is too low. -/
def emit (desk : Desk) (e : Entry) : Desk :=
  if e.level.rank < desk.threshold.rank then desk else desk.handlers.foldl (pass e) desk

/-- The record of a desk that has been set up. -/
def greeting (time place file : String) : Entry :=
  ⟨time, .debug, "root", place, s!"Observabilidad iniciada. Logs persistentes en: {file}"⟩

/-- Sets a desk up, unless its file cannot be opened (`configure_logging`). The file is opened
before the handlers that there were are given up, so a failure leaves the desk as it was. -/
def configure (desk : Desk) (time place : String) (threshold : Level)
    (asked environment : Option String) : Except AccessFault Desk :=
  let file := chosenFile asked environment
  let path := (Path.ofText file).absolute desk.disk.here
  (append desk.disk path "").map fun disk =>
    { desk with
      disk
      threshold := .debug
      handlers := [⟨threshold, .console⟩, ⟨.debug, .file path⟩] }.emit (greeting time place file)

end Desk

end LicenseDepot
