import LicenseDepot.Text.Blank
import LicenseDepot.Text.Digit
import LicenseDepot.Text.Quoted

/-!
# Integer numerals

An integer is written as an optional sign and digits of the base. The reader is lenient: blanks
may stand on both sides, single underscores between digits, digits of any script for the ASCII
ones, and `0x` before a hexadecimal numeral. Decimal numerals are limited to `digitLimit` digits in
both directions; a numeral of a base that is a power of two is not.
-/

namespace LicenseDepot.Numeral.Integer

open Text

/-- The most digits of a decimal numeral that is read or written. -/
def digitLimit : Nat := 4300

/-- Why a text is no integer. -/
inductive Fault
  /-- The text is not written as an integer of the base. -/
  | malformed (base : Nat) (text : List Char)
  /-- The decimal numeral has this many digits, more than `digitLimit`. -/
  | tooLong (digits : Nat)
  deriving DecidableEq, Repr

/-- How many characters of a malformed text its report shows. -/
def shownLimit : Nat := 200

/-- The report of a text that is no integer. -/
def Fault.message : Fault → String
  | .malformed base text =>
    s!"invalid literal for int() with base {base}: "
      ++ String.ofList ((quotedChars text).take shownLimit)
  | .tooLong digits =>
    s!"Exceeds the limit ({digitLimit} digits) for integer string conversion: value has "
      ++ s!"{digits} digits; use sys.set_int_max_str_digits() to increase the limit"

/-- The blanks of ASCII that may surround a numeral. -/
def isAsciiBlank (c : Char) : Bool :=
  (decide (9 ≤ c.toNat) && decide (c.toNat ≤ 13)) || c == ' '

/-- A character of a text that is not all ASCII, brought to ASCII: blanks of any kind become
spaces and digits of any script the ASCII digits. -/
def asciiForm (c : Char) : Char :=
  if c.toNat < 0x7F then c
  else if isBlank c then ' '
  else
    match decimalValue? c with
    | some d => Char.ofNat (48 + d)
    | none => c

/-- The text with foreign blanks and digits brought to ASCII, unless it is ASCII already. -/
def toAscii (s : List Char) : List Char :=
  if s.all fun c => c.toNat < 0x80 then s else s.map asciiForm

/-- The value of a digit of a base. -/
def digitValue? (base : Nat) (c : Char) : Option Nat :=
  (alphanumericValue? c).filter (· < base)

/-- Whether underscores stand only between digits, one at a time. `opened` says that a digit comes
directly before. -/
def wellSeparated (opened : Bool) : List Char → Bool
  | [] => opened
  | c :: s => if c = '_' then opened && wellSeparated false s else wellSeparated true s

/-- The sign of a numeral and what follows it. -/
def splitSign : List Char → Bool × List Char
  | '-' :: s => (true, s)
  | '+' :: s => (false, s)
  | s => (false, s)

/-- The text after the mark of the base, which is `0x` for base sixteen and may be followed by one
underscore. -/
def dropMark (base : Nat) (s : List Char) : List Char :=
  match s with
  | '0' :: x :: rest =>
    if base = 16 ∧ (x = 'x' ∨ x = 'X') then
      match rest with
      | '_' :: rest => rest
      | _ => rest
    else s
  | _ => s

/-- The value of a run of digits of a base; underscores count for nothing. -/
def valueOf (base : Nat) (digits : List Char) : Nat :=
  digits.foldl (fun n c => n * base + (digitValue? base c).getD 0) 0

/-- Whether the number of digits is limited in a base. -/
def isLimited (base : Nat) : Bool :=
  base != 2 && base != 4 && base != 8 && base != 16 && base != 32

/-- Reads an integer of a base. -/
def read (base : Nat) (text : List Char) : Except Fault Int :=
  let (negative, unsigned) := splitSign ((toAscii text).dropWhile isAsciiBlank)
  let body := dropMark base unsigned
  let isPart := fun c => (digitValue? base c).isSome || c == '_'
  let run := body.takeWhile isPart
  let digits := run.filter (· != '_')
  if wellSeparated false run = false then .error (.malformed base text)
  else if isLimited base ∧ digitLimit < digits.length then .error (.tooLong digits.length)
  else if ((body.dropWhile isPart).all isAsciiBlank) = false then .error (.malformed base text)
  else
    let n := valueOf base digits
    .ok (if negative then -(n : Int) else n)

/-- The decimal numeral of an integer, without leading zeros. -/
def digits (n : Int) : List Char :=
  let unsigned := Nat.toDigits 10 n.natAbs
  if n < 0 then '-' :: unsigned else unsigned

/-- The decimal numeral of an integer as text. -/
def toText (n : Int) : String :=
  String.ofList (digits n)

/-- Whether an integer has a decimal numeral within the limit. -/
def isWritable (n : Int) : Bool :=
  decide ((Nat.toDigits 10 n.natAbs).length ≤ digitLimit)

/-- The report of an integer whose numeral is past the limit. -/
def unwritableMessage : String :=
  s!"Exceeds the limit ({digitLimit} digits) for integer string conversion; "
    ++ "use sys.set_int_max_str_digits() to increase the limit"

end LicenseDepot.Numeral.Integer
