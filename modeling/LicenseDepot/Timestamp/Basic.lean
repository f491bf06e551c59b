/-!
# Dates, times of day and instants

A timestamp is a date of the Gregorian calendar, a time of day down to the microsecond, and
optionally the zone whose clocks show them. Every value carries the proof that it is valid, so
nothing that reads or builds one can produce the thirtieth of February.

A zone is a fixed offset from universal time or has rules of its own. By rules, clocks are set back
and forward; then a date and a time of day come twice, or not at all, and a mark of the timestamp,
its fold, says which of two readings is meant. Two timestamps of one zone with rules are the same
when they show the same date and time. Otherwise they are the same when both lack an offset and show
the same, or both have one and name the same instant, and no timestamp whose offset depends on the
fold is the same as one of another zone.
-/

namespace LicenseDepot

/-- Whether a year of the Gregorian calendar has a leap day. -/
def isLeapYear (year : Nat) : Bool :=
  year % 4 == 0 && (year % 100 != 0 || year % 400 == 0)

/-- The number of days of a month; months past the twelfth have none. -/
def daysInMonth (year month : Nat) : Nat :=
  match month with
  | 1 | 3 | 5 | 7 | 8 | 10 | 12 => 31
  | 4 | 6 | 9 | 11 => 30
  | 2 => if isLeapYear year then 29 else 28
  | _ => 0

/-- The number of days of a year. -/
def daysInYear (year : Nat) : Nat :=
  if isLeapYear year then 366 else 365

/-- The number of days from the first day of year one to the first day of a year. -/
def daysBeforeYear (year : Nat) : Nat :=
  let past := year - 1
  past * 365 + past / 4 - past / 100 + past / 400

/-- A date of the Gregorian calendar, in the years 1 to 9999. -/
structure Date where
  year : Nat
  month : Nat
  day : Nat
  year_valid : 1 ≤ year ∧ year ≤ 9999
  month_valid : 1 ≤ month ∧ month ≤ 12
  day_valid : 1 ≤ day ∧ day ≤ daysInMonth year month
  deriving DecidableEq

/-- A time of day. -/
structure Clock where
  hour : Nat
  minute : Nat
  second : Nat
  microsecond : Nat
  hour_valid : hour ≤ 23
  minute_valid : minute ≤ 59
  second_valid : second ≤ 59
  microsecond_valid : microsecond ≤ 999999
  deriving DecidableEq

/-- The microseconds of a day. -/
def dayMicroseconds : Nat := 86400000000

/-- The distance of a local time from universal time, less than a day either way. -/
structure Offset where
  microseconds : Int
  valid : microseconds.natAbs < dayMicroseconds
  deriving DecidableEq

/-- A zone with rules, as a timestamp meets it that shows some date and time. All that is ever asked
of the rules is the offset there: for the first reading of that date and time, and for the second.
The two differ where clocks are set. Rules may also know of no offset. Zones are told apart by their
numbers, since two zones may have equal rules. -/
structure RuledZone where
  number : Nat
  /-- How the zone is shown in full. -/
  shown : String
  first : Option Offset
  second : Option Offset
  deriving DecidableEq

/-- The zone whose clocks a timestamp shows. -/
inductive Zone
  | fixed (offset : Offset)
  | ruled (zone : RuledZone)
  deriving DecidableEq

/-- A date and a time of day, and the zone whose clocks show them, if it is known. -/
structure Timestamp where
  date : Date
  clock : Clock
  zone : Option Zone := none
  /-- The second reading of the date and the time is meant, where there are two. -/
  fold : Bool := false
  deriving DecidableEq

/-- Universal time. -/
def Offset.utc : Offset := ⟨0, by decide⟩

/-- The offset that a zone gives for one of the two readings of a timestamp. -/
def Zone.offset? (fold : Bool) : Zone → Option Offset
  | .fixed o => some o
  | .ruled z => if fold then z.second else z.first

/-- The offset of a timestamp from universal time, if it has one (`utcoffset`). -/
def Timestamp.offset (t : Timestamp) : Option Offset :=
  t.zone.bind (Zone.offset? t.fold)

/-- Whether the offset of a timestamp depends on which of the two readings is meant. -/
def Timestamp.isTwofold (t : Timestamp) : Bool :=
  t.zone.bind (Zone.offset? true) != t.zone.bind (Zone.offset? false)

/-- Whether two timestamps are of one zone with rules. -/
def Timestamp.shareZone (s t : Timestamp) : Bool :=
  match s.zone, t.zone with
  | some (.ruled y), some (.ruled z) => y.number == z.number
  | _, _ => false

/-- A length of time in whole days, seconds of a day and microseconds of a second, as reports show
it; parts that are zero are left out, and an empty length is a plain zero. -/
def showDuration (microseconds : Int) : String :=
  let days := microseconds.fdiv dayMicroseconds
  let within := (microseconds.fmod dayMicroseconds).toNat
  let parts :=
    (if days = 0 then [] else [s!"days={days}"])
      ++ (if within / 1000000 = 0 then [] else [s!"seconds={within / 1000000}"])
      ++ (if within % 1000000 = 0 then [] else [s!"microseconds={within % 1000000}"])
  let shown := if parts.isEmpty then "0" else ", ".intercalate parts
  s!"datetime.timedelta({shown})"

/-- Which part of a timestamp is out of its range. -/
inductive RangeFault
  | year (year : Nat)
  | month
  | day
  | hour
  | minute
  | second
  | microsecond
  | offset (microseconds : Int)
  deriving DecidableEq, Repr

/-- The report of a part out of its range. -/
def RangeFault.message : RangeFault → String
  | .year y => s!"year {y} is out of range"
  | .month => "month must be in 1..12"
  | .day => "day is out of range for month"
  | .hour => "hour must be in 0..23"
  | .minute => "minute must be in 0..59"
  | .second => "second must be in 0..59"
  | .microsecond => "microsecond must be in 0..999999"
  | .offset microseconds =>
    "offset must be a timedelta strictly between -timedelta(hours=24) and timedelta(hours=24), "
      ++ s!"not {showDuration microseconds}."

/-- The date with the given fields, or the first field out of its range. -/
def Date.ofFields (year month day : Nat) : Except RangeFault Date :=
  if hy : 1 ≤ year ∧ year ≤ 9999 then
    if hm : 1 ≤ month ∧ month ≤ 12 then
      if hd : 1 ≤ day ∧ day ≤ daysInMonth year month then .ok ⟨year, month, day, hy, hm, hd⟩
      else .error .day
    else .error .month
  else .error (.year year)

/-- The time of day with the given fields, or the first field out of its range. -/
def Clock.ofFields (hour minute second microsecond : Nat) : Except RangeFault Clock :=
  if hh : hour ≤ 23 then
    if hm : minute ≤ 59 then
      if hs : second ≤ 59 then
        if hu : microsecond ≤ 999999 then .ok ⟨hour, minute, second, microsecond, hh, hm, hs, hu⟩
        else .error .microsecond
      else .error .second
    else .error .minute
  else .error .hour

/-- The offset of the given length, unless it reaches a day. -/
def Offset.ofMicroseconds (microseconds : Int) : Except RangeFault Offset :=
  if h : microseconds.natAbs < dayMicroseconds then .ok ⟨microseconds, h⟩
  else .error (.offset microseconds)

@[simp] theorem Date.ofFields_self (d : Date) : Date.ofFields d.year d.month d.day = .ok d := by
  simp [Date.ofFields, d.year_valid, d.month_valid, d.day_valid]

@[simp] theorem Clock.ofFields_self (c : Clock) :
    Clock.ofFields c.hour c.minute c.second c.microsecond = .ok c := by
  simp [Clock.ofFields, c.hour_valid, c.minute_valid, c.second_valid, c.microsecond_valid]

@[simp] theorem Offset.ofMicroseconds_self (o : Offset) :
    Offset.ofMicroseconds o.microseconds = .ok o := by
  simp [Offset.ofMicroseconds, o.valid]

/-- The number of a date, counted from the first day of year one as number one. -/
def Date.ordinal (d : Date) : Nat :=
  (List.range' 1 (d.month - 1)).foldl (fun days m => days + daysInMonth d.year m)
    (daysBeforeYear d.year) + d.day

/-- The microseconds from the start of the day to a time of day. -/
def Clock.microseconds (c : Clock) : Nat :=
  ((c.hour * 60 + c.minute) * 60 + c.second) * 1000000 + c.microsecond

/-- The microseconds that a timestamp shows on the local calendar and clock. -/
def Timestamp.localMicroseconds (t : Timestamp) : Int :=
  t.date.ordinal * dayMicroseconds + t.clock.microseconds

/-- The instant that a timestamp with an offset names, in microseconds of universal time. -/
def Timestamp.instant? (t : Timestamp) : Option Int :=
  t.offset.map fun o => t.localMicroseconds - o.microseconds

/-- Whether two timestamps are the same. Those of one zone with rules are compared by what they
show, and all others by the instants they name, or by what they show if neither names one; but one
whose offset depends on its fold is never the same as one of another zone. -/
def Timestamp.same (s t : Timestamp) : Bool :=
  if s.shareZone t then s.date == t.date && s.clock == t.clock
  else if s.isTwofold || t.isTwofold then false
  else
    match s.instant?, t.instant? with
    | none, none => s.date == t.date && s.clock == t.clock
    | some i, some j => i == j
    | _, _ => false

@[simp] theorem Timestamp.same_refl (t : Timestamp) : t.same t = true := by
  obtain ⟨date, clock, zone, fold⟩ := t
  rcases zone with _ | o | z
  · simp [same, shareZone, isTwofold, instant?, offset]
  · simp [same, shareZone, isTwofold, instant?, offset, Zone.offset?]
  · simp [same, shareZone]

end LicenseDepot
