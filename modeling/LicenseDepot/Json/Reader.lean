import LicenseDepot.Json.Basic
import LicenseDepot.Text.Digit

/-!
# Reading JSON

The reader takes any JSON text. Two escaped surrogates that belong together make one character; a
single one makes none, and neither does a number past the greatest floating-point number, so texts
that hold these are refused. The recursion is bounded by the length of the text, since every value
inside another one begins at least one character later.
-/

namespace LicenseDepot.Json

open Text Numeral

/-- The text without the space in front of it. -/
def skipSpace (s : List Char) : List Char :=
  s.dropWhile fun c => c == ' ' || c == '\n' || c == '\r' || c == '\t'

/-- The text after a word that has to lead it. -/
def afterWord? (word : String) (s : List Char) : Option (List Char) :=
  if word.toList.isPrefixOf s then some (s.drop word.length) else none

/-- The unit of sixteen bits that four hexadecimal digits spell. -/
def unit? (s : List Char) : Option (Nat × List Char) :=
  if (s.take 4).length = 4 then
    ((s.take 4).foldlM (fun n c => ((alphanumericValue? c).filter (· < 16)).map (n * 16 + ·)) 0).map
      (·, s.drop 4)
  else none

/-- The character of an escape after its `\u`, and what follows it. -/
def escaped? (s : List Char) : Option (Char × List Char) :=
  (unit? s).bind fun (u, rest) =>
    if 0xD800 ≤ u ∧ u < 0xDC00 then
      (afterWord? "\\u" rest).bind fun s => (unit? s).bind fun (v, rest) =>
        if 0xDC00 ≤ v ∧ v < 0xE000 then
          some (Char.ofNat (0x10000 + (u - 0xD800) * 0x400 + (v - 0xDC00)), rest)
        else none
    else if 0xDC00 ≤ u ∧ u < 0xE000 then none
    else some (Char.ofNat u, rest)

/-- The character of an escape of one letter. -/
def letterEscape? (c : Char) : Option Char :=
  [('"', '"'), ('\\', '\\'), ('/', '/'), ('b', '\x08'), ('f', '\x0c'), ('n', '\n'), ('r', '\r'),
    ('t', '\t')].lookup c

/-- Reads a text after its opening quote, with at most `fuel` characters; `done` holds those read
so far, last one first. -/
def readText? (fuel : Nat) (done : List Char) (s : List Char) : Option (String × List Char) :=
  match fuel, s with
  | 0, _ => none
  | _, [] => none
  | fuel + 1, c :: s =>
    if c = '"' then some (String.ofList done.reverse, s)
    else if c.toNat < 0x20 then none
    else if c = '\\' then
      match s with
      | 'u' :: s => (escaped? s).bind fun (c, s) => readText? fuel (c :: done) s
      | e :: s => (letterEscape? e).bind fun c => readText? fuel (c :: done) s
      | [] => none
    else readText? fuel (c :: done) s

/-- The number that digits, a fraction and a power of ten spell. -/
def decimalOf? (negative : Bool) (whole fraction : List Char) (exponent : Int) : Option Binary64 :=
  let n := Nat.ofDigitChars 10 (whole ++ fraction) 0
  let e := exponent - fraction.length
  if e < 0 then Binary64.ofRatio? negative n (Nat.pow 10 e.natAbs)
  else Binary64.ofRatio? negative (n * Nat.pow 10 e.natAbs) 1

/-- The exponent of a power of ten, if there is one, and what follows it. -/
def readExponent? (s : List Char) : Option (Option Int × List Char) :=
  match s with
  | c :: s =>
    if c = 'e' ∨ c = 'E' then
      let (negative, s) := match s with
        | '-' :: s => (true, s)
        | '+' :: s => (false, s)
        | s => (false, s)
      let digits := s.takeWhile Char.isDigit
      if digits.isEmpty then none
      else
        let n : Int := Nat.ofDigitChars 10 digits 0
        some (some (if negative then -n else n), s.dropWhile Char.isDigit)
    else some (none, c :: s)
  | [] => some (none, [])

/-- The digits of a fraction, if there is one, and what follows them. -/
def readFraction? (s : List Char) : Option (Option (List Char) × List Char) :=
  match s with
  | '.' :: s =>
    let digits := s.takeWhile Char.isDigit
    if digits.isEmpty then none else some (some digits, s.dropWhile Char.isDigit)
  | s => some (none, s)

/-- Whether a number has a minus sign, and what follows it. -/
def splitMinus : List Char → Bool × List Char
  | '-' :: s => (true, s)
  | s => (false, s)

/-- Reads a number. -/
def readNumber? (s : List Char) : Option (Json × List Char) := do
  let (negative, s) := splitMinus s
  let whole := s.takeWhile Char.isDigit
  if whole.isEmpty || (whole.length != 1 && whole.head? == some '0') then none
  else
    let (fraction, s) ← readFraction? (s.dropWhile Char.isDigit)
    let (exponent, s) ← readExponent? s
    match fraction, exponent with
    | none, none =>
      let n : Int := Nat.ofDigitChars 10 whole 0
      some (.integer (if negative then -n else n), s)
    | _, _ =>
      (decimalOf? negative whole (fraction.getD []) (exponent.getD 0)).map (.decimal ·, s)

mutual

/-- Reads a value; `fuel` bounds the values inside it and the characters of each text. -/
def readValue? (fuel : Nat) (s : List Char) : Option (Json × List Char) :=
  match fuel with
  | 0 => none
  | fuel + 1 =>
    match skipSpace s with
    | '"' :: s => (readText? fuel [] s).map fun (t, s) => (.text t, s)
    | '[' :: s =>
      match skipSpace s with
      | ']' :: s => some (.list [], s)
      | s => (readItems? fuel [] s).map fun (items, s) => (.list items, s)
    | '\x7b' :: s =>
      match skipSpace s with
      | '\x7d' :: s => some (.object [], s)
      | s => (readMembers? fuel [] s).map fun (members, s) => (.object members, s)
    | s =>
      match afterWord? "null" s, afterWord? "true" s, afterWord? "false" s with
      | some s, _, _ => some (.null, s)
      | _, some s, _ => some (.bool true, s)
      | _, _, some s => some (.bool false, s)
      | _, _, _ => readNumber? s

/-- Reads the items of a list up to its end; `done` holds those read so far, last one first. -/
def readItems? (fuel : Nat) (done : List Json) (s : List Char) : Option (List Json × List Char) :=
  match fuel with
  | 0 => none
  | fuel + 1 =>
    match readValue? fuel s with
    | none => none
    | some (item, s) =>
      match skipSpace s with
      | ',' :: s => readItems? fuel (item :: done) s
      | ']' :: s => some ((item :: done).reverse, s)
      | _ => none

/-- Reads the members of an object up to its end; `done` holds those read so far, last one
first. -/
def readMembers? (fuel : Nat) (done : List (String × Json)) (s : List Char) :
    Option (List (String × Json) × List Char) :=
  match fuel with
  | 0 => none
  | fuel + 1 =>
    match skipSpace s with
    | '"' :: s =>
      match readText? fuel [] s with
      | none => none
      | some (key, s) =>
        match skipSpace s with
        | ':' :: s =>
          match readValue? fuel s with
          | none => none
          | some (value, s) =>
            match skipSpace s with
            | ',' :: s => readMembers? fuel ((key, value) :: done) s
            | '\x7d' :: s => some (((key, value) :: done).reverse, s)
            | _ => none
        | _ => none
    | _ => none

end

/-- Reads a JSON text. -/
def read? (s : List Char) : Option Json :=
  match readValue? (2 * s.length + 1) s with
  | some (j, rest) => if (skipSpace rest).isEmpty then some j else none
  | none => none

end LicenseDepot.Json
