import LicenseDepot.Text.Printable
import LicenseDepot.Text.Hex

/-!
# Quoted text in messages

Messages show a value between single quotes, or between double quotes when it holds a single
quote and no double one. Backslashes, the quote in use and characters that cannot be shown are
escaped, so the quoted form of any text is one line of printable characters.
-/

namespace LicenseDepot.Text

/-- The quote that encloses a text: single, unless only single quotes occur in it. -/
def quoteFor (s : List Char) : Char :=
  if s.contains '\'' && !s.contains '"' then '"' else '\''

/-- One character of a quoted text, as it is shown. -/
def quotedChar (quote c : Char) : List Char :=
  if c = quote ∨ c = '\\' then ['\\', c]
  else if c = '\t' then ['\\', 't']
  else if c = '\n' then ['\\', 'n']
  else if c = '\r' then ['\\', 'r']
  else if isPrintable c then [c]
  else if c.toNat < 0x100 then '\\' :: 'x' :: hex 2 c.toNat
  else if c.toNat < 0x10000 then '\\' :: 'u' :: hex 4 c.toNat
  else '\\' :: 'U' :: hex 8 c.toNat

/-- A text as messages quote it. -/
def quotedChars (s : List Char) : List Char :=
  let quote := quoteFor s
  quote :: s.flatMap (quotedChar quote) ++ [quote]

/-- A string as messages quote it. -/
def quoted (s : String) : String :=
  String.ofList (quotedChars s.toList)

/-- One byte of a quoted byte string, as it is shown. -/
def quotedByte (quote : Char) (b : UInt8) : List Char :=
  let c := Char.ofNat b.toNat
  if c = quote ∨ c = '\\' then ['\\', c]
  else if c = '\t' then ['\\', 't']
  else if c = '\n' then ['\\', 'n']
  else if c = '\r' then ['\\', 'r']
  else if 0x20 ≤ b.toNat ∧ b.toNat < 0x7F then [c]
  else '\\' :: 'x' :: hex 2 b.toNat

/-- A byte string as messages quote it, with a leading `b`. -/
def quotedBytes (bytes : List UInt8) : String :=
  let quote := quoteFor (bytes.map fun b => Char.ofNat b.toNat)
  String.ofList ('b' :: quote :: bytes.flatMap (quotedByte quote) ++ [quote])

end LicenseDepot.Text
