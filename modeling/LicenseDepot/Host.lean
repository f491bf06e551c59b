import LicenseDepot.Files.Access
import LicenseDepot.Journal.Event

/-!
# The host of a store

What a store asks of the machine it runs on: access to files, a place to report to, and readings of
its clocks and its memory. Operations are written for any host. `Machine` is one whose state is a
value, so that what an operation does to files and what it reports can be told from the state before
and after.
-/

namespace LicenseDepot

open Numeral

/-- What a store asks of the machine it runs on. -/
class Host (m : Type → Type) where
  report : Notice → m Unit
  /-- A clock that only goes forward, in seconds (`perf_counter`). -/
  stopwatch : m Binary64
  /-- The time of the calendar, in seconds. -/
  time : m Binary64
  /-- The bytes of memory in use, if that can be told (`memory_info`). -/
  memory : m (Option Nat)
  /-- A short text that tells one operation from another (`get_correlation_id`). -/
  token : m String
  holds : Path → m (Except AccessFault Bool)
  read : Path → m (Except AccessFault Bytes)
  write : Path → Bytes → m (Except AccessFault Unit)
  list : Path → m (Except AccessFault (List String))
  unlink : Path → m (Except AccessFault Unit)
  removeTree : Path → m (Except AccessFault Unit)

/-- The readings that a machine is going to give, first ones first. -/
structure Readings where
  stopwatch : List Binary64 := []
  time : List Binary64 := []
  memory : List (Option Nat) := []
  token : List String := []

/-- A machine as a value: its files, what has been reported, and the readings to come. -/
structure Machine where
  disk : Disk
  journal : List Notice
  readings : Readings

namespace Machine

/-- The machine after a report. -/
def noting (w : Machine) (n : Notice) : Machine :=
  { w with journal := w.journal ++ [n] }

/-- Does something to the files, or fails and leaves them as they are. -/
def change (f : Disk → Except AccessFault Disk) : StateM Machine (Except AccessFault Unit) :=
  fun w =>
    match f w.disk with
    | .ok disk => (.ok (), { w with disk })
    | .error e => (.error e, w)

instance : Host (StateM Machine) where
  report n := modify (·.noting n)
  stopwatch := fun w =>
    (w.readings.stopwatch.headD default,
      { w with readings := { w.readings with stopwatch := w.readings.stopwatch.tail } })
  time := fun w =>
    (w.readings.time.headD default,
      { w with readings := { w.readings with time := w.readings.time.tail } })
  memory := fun w =>
    (w.readings.memory.headD none,
      { w with readings := { w.readings with memory := w.readings.memory.tail } })
  token := fun w =>
    (w.readings.token.headD "00000000",
      { w with readings := { w.readings with token := w.readings.token.tail } })
  holds p := fun w => (w.disk.holds p, w)
  read p := fun w => (w.disk.read p, w)
  write p content := change (·.write p content)
  list p := fun w => (w.disk.list p, w)
  unlink p := change (·.unlink p)
  removeTree p := fun w =>
    let (disk, r) := w.disk.removeTree p
    (r, { w with disk })

end Machine

end LicenseDepot
