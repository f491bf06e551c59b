import LicenseDepot.Failure
import LicenseDepot.Host
import LicenseDepot.Journal.Context

/-!
# Measured operations

A measured operation reports an event when it starts and another one when it ends, with the time it
took and the memory in use. Both carry one token and one context. The operation itself is not
touched: its result, its failure and what it reports are those it would have without measurement.
-/

namespace LicenseDepot

open Numeral

variable {m : Type → Type} [Monad m] [Host m]

/-- Bytes as megabytes with two decimal places. -/
def megabytes (bytes : Nat) : Binary64 :=
  ((Binary64.ofNat bytes |>.divNat 1024).divNat 1024).roundTo 2

/-- The memory in use, in megabytes (`_get_ram_usage_mb`); zero if it cannot be told. -/
def memoryInUse : m Binary64 := do
  return ((← Host.memory).map megabytes).getD (.zero false)

/-- Reports an event (`log_event`). -/
def emit (level name correlation : String) (data : List (String × Json)) : m Unit := do
  Host.report (.event { name, correlation, level, time := .decimal (← Host.time), data })

/-- What the event at the end of an operation says that went well. -/
def completedData (duration endRam startRam : Binary64) (c : Context) : List (String × Json) :=
  [("duration_sec", .decimal (duration.roundTo 4)), ("end_ram_mb", .decimal endRam),
    ("ram_delta_mb", .decimal ((endRam - startRam).roundTo 2))]
    ++ c.members ++ [("status", .text "success")]

/-- What the event at the end of an operation says that failed. -/
def failedData {ε : Type} [Reportable ε] (duration crashRam : Binary64) (c : Context) (e : ε) :
    List (String × Json) :=
  [("duration_sec", .decimal (duration.roundTo 4)), ("crash_ram_mb", .decimal crashRam)]
    ++ c.members
    ++ [("error_type", .text (Reportable.typeName e)), ("error_msg", .text (Reportable.message e))]

/-- An operation on some values, with an event before and one after it (`measure_latency`). -/
def measured {ε α : Type} [Reportable ε] (operation : String) (subjects : List Subject)
    (act : ExceptT ε m α) : ExceptT ε m α := ExceptT.mk do
  let start ← Host.stopwatch
  let startRam ← memoryInUse
  let correlation ← Host.token
  let context := Context.ofSubjects subjects
  emit "INFO" s!"{operation}.started" correlation
    (context.members ++ [("start_ram_mb", .decimal startRam)])
  match ← act.run with
  | .error e =>
    let duration := (← Host.stopwatch) - start
    let crashRam ← memoryInUse
    emit "ERROR" s!"{operation}.failed" correlation (failedData duration crashRam context e)
    return .error e
  | .ok a =>
    let endRam ← memoryInUse
    let duration := (← Host.stopwatch) - start
    emit "INFO" s!"{operation}.completed" correlation
      (completedData duration endRam startRam context)
    return .ok a

end LicenseDepot
