import LicenseDepot.Text.Utf8
import LicenseDepot.Text.Quoted
import LicenseDepot.Timestamp.Basic

/-!
# The ISO form of a timestamp

The writer has one form: `YYYY-MM-DDThh:mm:ss`, then six digits of a fraction if there is one,
then the offset, if known, with as many of its parts as are needed. The reader takes that form and
the other ones of the standard that a document may hold: dates without hyphens and week dates, any
one character between date and time, times cut short, times without colons, a fraction of any
length after a point or a comma, and `Z` for universal time. It works on the UTF-8 bytes of the
text.
-/

namespace LicenseDepot.Timestamp

open Text

/-- A number in decimal, with zeros in front up to a width. -/
def padded (width n : Nat) : List Char :=
  let digits := Nat.toDigits 10 n
  List.replicate (width - digits.length) '0' ++ digits

/-- The ISO form of a date. -/
def isoDate (d : Date) : List Char :=
  padded 4 d.year ++ '-' :: padded 2 d.month ++ '-' :: padded 2 d.day

/-- The ISO form of a time of day; a fraction of zero is left out. -/
def isoClock (c : Clock) : List Char :=
  padded 2 c.hour ++ ':' :: padded 2 c.minute ++ ':' :: padded 2 c.second
    ++ (if c.microsecond = 0 then [] else '.' :: padded 6 c.microsecond)

/-- The ISO form of an offset: a sign, hours and minutes, and then seconds and a fraction as far
as they are needed. -/
def isoOffset (o : Offset) : List Char :=
  let n := o.microseconds.natAbs
  let second := n / 1000000 % 60
  let microsecond := n % 1000000
  (if o.microseconds < 0 then '-' else '+') :: padded 2 (n / 3600000000)
    ++ ':' :: padded 2 (n / 60000000 % 60)
    ++ (if second = 0 ∧ microsecond = 0 then [] else ':' :: padded 2 second)
    ++ (if microsecond = 0 then [] else '.' :: padded 6 microsecond)

/-- The ISO form of a timestamp. -/
def iso (t : Timestamp) : List Char :=
  isoDate t.date ++ 'T' :: isoClock t.clock ++ (t.offset.map isoOffset).getD []

/-- The ISO form of a timestamp as a string. -/
def toText (t : Timestamp) : String :=
  String.ofList t.iso

/-- Why a text is no timestamp. -/
inductive Fault
  /-- The text has none of the forms. -/
  | malformed (text : List Char)
  /-- A field of the text is out of its range. -/
  | range (fault : RangeFault)
  deriving DecidableEq, Repr

/-- The report of a text that is no timestamp. -/
def Fault.message : Fault → String
  | .malformed text => s!"Invalid isoformat string: {String.ofList (quotedChars text)}"
  | .range fault => fault.message

/-- The value of an ASCII digit. -/
def digit? (b : UInt8) : Option Nat :=
  if 48 ≤ b.toNat ∧ b.toNat ≤ 57 then some (b.toNat - 48) else none

/-- The number that a run of digits spells, if they all are digits. -/
def number? (digits : Bytes) : Option Nat :=
  digits.foldlM (fun n b => (digit? b).map (n * 10 + ·)) 0

/-- The number in the first `width` bytes and the rest, if there are as many and all digits. -/
def digits? (width : Nat) (s : Bytes) : Option (Nat × Bytes) :=
  if width ≤ s.length then (number? (s.take width)).map (·, s.drop width) else none

/-- The rest of the bytes after one that has to lead them. -/
def after? (b : UInt8) : Bytes → Option Bytes
  | c :: s => if c = b then some s else none
  | [] => none

/-- The hyphen. -/
def hyphen : UInt8 := 45

/-- The colon. -/
def colon : UInt8 := 58

/-- The letter that marks a week date. -/
def weekMark : UInt8 := 87

/-- Whether the byte at a position is a digit. -/
def isDigitAt (s : Bytes) (i : Nat) : Bool :=
  ((s[i]?).bind digit?).isSome

/-- How many bytes of the text belong to its date. A week date without hyphens is as long as the
parity of its digits leaves room for a time after it; with hyphens, a second digit after the day
means that the hyphen before it already ends the date. -/
def dateLength? (s : Bytes) : Option Nat :=
  if s.length = 7 then some 7
  else if s[4]? = some hyphen then
    if s[5]? = some weekMark then
      if s[8]? = some hyphen then
        if s.length = 9 then none
        else if isDigitAt s 10 then some 8
        else some 10
      else some 8
    else some 10
  else if s[4]? = some weekMark then
    let stop := 7 + ((s.drop 7).takeWhile fun b => (digit? b).isSome).length
    if stop < 9 then some stop
    else if stop % 2 = 0 then some 7
    else some 8
  else some 8

/-- The day of the week of the first day of a year, counted from Monday as zero. -/
def firstWeekday (year : Nat) : Nat :=
  daysBeforeYear year % 7

/-- The number of weeks of a year of week dates. -/
def weeksInYear (year : Nat) : Nat :=
  if firstWeekday year = 3 ∨ (firstWeekday year = 2 ∧ isLeapYear year) then 53 else 52

/-- The month and the day of month of a day of a year; the first is day one. -/
def monthAndDay (year : Nat) (day : Nat) : Nat × Nat :=
  go 11 1 day
where
  /-- Moves on month by month, at most `left` times. -/
  go : Nat → Nat → Nat → Nat × Nat
    | 0, month, day => (month, day)
    | left + 1, month, day =>
      if day ≤ daysInMonth year month then (month, day)
      else go left (month + 1) (day - daysInMonth year month)

/-- Year, month and day of a week date. The first week of a year is the one that holds its first
Thursday, so a week date may lie in the calendar year before or after its own. The weeks of the year
zero come before the calendar begins, and none of its months is theirs. -/
def ofWeek (year week weekday : Nat) : Nat × Nat × Nat :=
  let start := (if 3 < firstWeekday year then 8 else 1 : Int) - firstWeekday year
  let day := start + (week - 1 : Nat) * 7 + (weekday - 1 : Nat)
  if year = 0 then (1, 0, 0)
  else if day < 1 then
    let (month, d) := monthAndDay (year - 1) (day + daysInYear (year - 1)).toNat
    (year - 1, month, d)
  else if daysInYear year < day then
    let (month, d) := monthAndDay (year + 1) (day - daysInYear year).toNat
    (year + 1, month, d)
  else
    let (month, d) := monthAndDay year day.toNat
    (year, month, d)

/-- Year, month and day as a date of `length` bytes gives them; their ranges are not checked,
except those of a week date. -/
def readDate? (length : Nat) (s : Bytes) : Option (Nat × Nat × Nat) := do
  let (year, s) ← digits? 4 s
  let hyphens := s.head? == some hyphen
  let s := if hyphens then s.drop 1 else s
  let rest? := fun s => if hyphens then after? hyphen s else some s
  if s.head? = some weekMark then
    let (week, s) ← digits? 2 (s.drop 1)
    let weekday ←
      if (if hyphens then 8 else 7) < length then ((rest? s).bind (digits? 1)).map Prod.fst
      else some 1
    if week < 1 ∨ weeksInYear year < week ∨ weekday < 1 ∨ 7 < weekday then none
    else some (ofWeek year week weekday)
  else
    let (month, s) ← digits? 2 s
    let (day, _) ← (rest? s).bind (digits? 2)
    some (year, month, day)

/-- Hours, minutes, seconds and microseconds of a text; their ranges are not checked. -/
structure RawClock where
  hour : Nat
  minute : Nat
  second : Nat
  microsecond : Nat

/-- What follows the two-digit fields of a time. -/
inductive ClockTail
  /-- Nothing follows. -/
  | finished
  /-- A single byte follows that is no part of the time. -/
  | stray
  /-- The digits of a fraction follow, one byte at least. -/
  | fraction (s : Bytes)

/-- Reads up to `left` two-digit fields. The first field tells whether colons separate them all or
none. -/
def readFields? (left : Nat) (colons : Option Bool) (s : Bytes) :
    Option (List Nat × ClockTail) :=
  match left with
  | 0 => some ([], .fraction s)
  | left + 1 =>
    match digits? 2 s with
    | none => none
    | some (n, []) => some ([n], .finished)
    | some (n, [_]) => some ([n], .stray)
    | some (n, b :: rest) =>
      let separated := colons.getD (b == colon)
      if separated ∧ b = colon then
        (readFields? left (some separated) rest).map fun (ns, tail) => (n :: ns, tail)
      else if b = 46 ∨ b = 44 then some ([n], .fraction rest)
      else if separated then none
      else (readFields? left (some separated) (b :: rest)).map fun (ns, tail) => (n :: ns, tail)

/-- The microseconds of a fraction and whether it takes up all of its bytes. The first six bytes
have to be digits, and digits past them are dropped. -/
def readFraction? (s : Bytes) : Option (Nat × Bool) :=
  let width := min 6 s.length
  (number? (s.take width)).map fun n =>
    (n * Nat.pow 10 (6 - width), ((s.drop width).dropWhile fun b => (digit? b).isSome).isEmpty)

/-- Reads a time, and tells whether it takes up all of the bytes. -/
def readClock? (s : Bytes) : Option (RawClock × Bool) := do
  let (fields, tail) ← readFields? 3 none s
  let (microsecond, whole) ←
    match tail with
    | .finished => some (0, true)
    | .stray => some (0, false)
    | .fraction s => readFraction? s
  some (⟨fields.getD 0 0, fields.getD 1 0, fields.getD 2 0, microsecond⟩, whole)

/-- Whether a byte begins an offset. -/
def isOffsetMark (b : UInt8) : Bool :=
  b == 43 || b == hyphen || b == 90

/-- The microseconds of an offset whose sign has been read. Its fraction counts only if the rest
of it is not zero. -/
def readOffset? (negative : Bool) (s : Bytes) : Option Int := do
  let (raw, whole) ← readClock? s
  if whole then
    let seconds := raw.hour * 3600 + raw.minute * 60 + raw.second
    let size : Int := if seconds = 0 then 0 else seconds * 1000000 + raw.microsecond
    some (if negative then -size else size)
  else none

/-- Reads a time and the offset after it, if there is one. Without an offset the time has to take
up all of the text. -/
def readTime? (s : Bytes) : Option (RawClock × Option Int) := do
  let time := s.takeWhile fun b => !isOffsetMark b
  let (raw, whole) ← readClock? time
  match s.drop time.length with
  | [] => if whole then some (raw, none) else none
  | mark :: rest =>
    if mark = 90 then if rest = [] then some (raw, some 0) else none
    else (readOffset? (mark == hyphen) rest).map fun n => (raw, some n)

/-- The bytes of the character that leads a text. -/
def leadWidth (s : Bytes) : Nat :=
  match s with
  | [] => 0
  | b :: _ =>
    if b.toNat < 0x80 then 1
    else if 0xE0 ≤ b.toNat ∧ b.toNat < 0xF0 then 3
    else if 0xF0 ≤ b.toNat then 4
    else 2

/-- The fields of a timestamp as a text gives them; their ranges are not checked. -/
def readFieldsOf? (s : Bytes) : Option ((Nat × Nat × Nat) × RawClock × Option Int) := do
  if s.length < 7 then none
  else
    let length ← dateLength? s
    let date ← readDate? length s
    if length < s.length then
      let rest := s.drop length
      let (clock, offset) ← readTime? (rest.drop (leadWidth rest))
      some (date, clock, offset)
    else some (date, ⟨0, 0, 0, 0⟩, none)

/-- The timestamp with the given fields, in a zone of a fixed offset if one is given. The range of
the offset is checked first, then those of the date and of the time. -/
def ofFields (date : Nat × Nat × Nat) (clock : RawClock) (offset : Option Int) :
    Except RangeFault Timestamp := do
  let offset ← offset.mapM Offset.ofMicroseconds
  let date ← Date.ofFields date.1 date.2.1 date.2.2
  let clock ← Clock.ofFields clock.hour clock.minute clock.second clock.microsecond
  return { date, clock, zone := offset.map .fixed }

/-- Reads a timestamp in any of its ISO forms. -/
def read (text : List Char) : Except Fault Timestamp :=
  match readFieldsOf? (Utf8.encode text) with
  | none => .error (.malformed text)
  | some (date, clock, offset) => (ofFields date clock offset).mapError .range

end LicenseDepot.Timestamp
