import LicenseDepot.Numeral.Integer

/-!
# Licence identifiers

A licence is identified by a 128-bit word. Its canonical text has thirty-two lower-case
hexadecimal digits in groups of 8, 4, 4, 4 and 12, joined by hyphens; the name of the file that
holds a licence is that text with the extension `.license`. The reader takes any spelling: either
case, hyphens anywhere, braces around the digits and a leading `urn:uuid:`.
-/

namespace LicenseDepot

open Text Numeral

/-- The identifier of a licence within a store. -/
structure LicenseId where
  value : BitVec 128
  deriving DecidableEq

namespace LicenseId

/-- Why a text names no identifier. -/
inductive Fault
  /-- The text has not thirty-two characters once its decoration is removed. -/
  | malformed
  /-- The thirty-two characters are no hexadecimal numeral. -/
  | digits (fault : Integer.Fault)
  deriving DecidableEq, Repr

/-- The report of a text that names no identifier. -/
def Fault.message : Fault → String
  | .malformed => "badly formed hexadecimal UUID string"
  | .digits fault => fault.message

/-- The text without any occurrence of a word, searched from left to right. -/
def without (word : List Char) (s : List Char) : List Char :=
  match s with
  | [] => []
  | c :: rest =>
    if word.isPrefixOf (c :: rest) ∧ word ≠ [] then without word ((c :: rest).drop word.length)
    else c :: without word rest
termination_by s.length
decreasing_by
  · rename_i h
    have : 0 < word.length := List.length_pos_iff.2 h.2
    simp
    omega
  · simp

/-- Whether a character is one of the braces that may enclose an identifier. -/
def isBrace (c : Char) : Bool :=
  c == '\x7b' || c == '\x7d'

/-- The text without the braces at either end. -/
def unbraced (s : List Char) : List Char :=
  ((s.dropWhile isBrace).reverse.dropWhile isBrace).reverse

/-- The text of an identifier without its decoration. -/
def bare (s : List Char) : List Char :=
  (unbraced (without "uuid:".toList (without "urn:".toList (trim s)))).filter (· != '-')

/-- Reads an identifier in any of its spellings. -/
def read (s : List Char) : Except Fault LicenseId :=
  let word := bare s
  if word.length = 32 then
    match Integer.read 16 word with
    | .ok n => .ok ⟨BitVec.ofInt 128 n⟩
    | .error fault => .error (.digits fault)
  else .error .malformed

/-- Reads an identifier from a string. -/
def ofString (s : String) : Except Fault LicenseId :=
  read s.toList

/-- Puts the hyphens of the canonical text after the digits 8, 12, 16 and 20. -/
def hyphenated (digits : List Char) : List Char :=
  digits.take 8 ++ '-' :: (digits.drop 8).take 4 ++ '-' :: (digits.drop 12).take 4
    ++ '-' :: (digits.drop 16).take 4 ++ '-' :: digits.drop 20

/-- The canonical text of an identifier. -/
def chars (id : LicenseId) : List Char :=
  hyphenated (hex 32 id.value.toNat)

/-- The canonical text of an identifier as a string. -/
def toText (id : LicenseId) : String :=
  String.ofList id.chars

instance : ToString LicenseId := ⟨toText⟩

@[simp] theorem length_chars (id : LicenseId) : id.chars.length = 36 := by
  simp [chars, hyphenated]

/-- The identifier with the version and variant of a random one and all other bits taken from a
word: bits 48 to 51 from the right of the upper half spell version four, and the two bits that
lead the lower half spell the variant. -/
def ofRandom (word : BitVec 128) : LicenseId :=
  let cleared := word &&& ~~~((0xF#128 <<< 76) ||| (0x3#128 <<< 62))
  ⟨cleared ||| (0x4#128 <<< 76) ||| (0x2#128 <<< 62)⟩

/-- The version that an identifier declares. -/
def version (id : LicenseId) : Nat :=
  (id.value.toNat >>> 76) % 16

/-- The extension of a licence file. -/
def fileExtension : List Char :=
  ".license".toList

/-- The name of the file that holds the licence of an identifier. -/
def fileName (id : LicenseId) : String :=
  String.ofList (id.chars ++ fileExtension)

/-- Whether a text is a run of lower-case hexadecimal digits of a given length, and what follows
the run. -/
def hexRun (n : Nat) (s : List Char) : Option (List Char) :=
  if (s.take n).length = n ∧ (s.take n).all isLowerHex then some (s.drop n) else none

/-- The text after a hyphen that has to lead it. -/
def afterHyphen : List Char → Option (List Char)
  | '-' :: s => some s
  | _ => none

/-- Whether a name is that of a licence file: groups of 8, 4, 4, 4 and 12 lower-case hexadecimal
digits, joined by hyphens, and the extension. -/
def isFileName (name : String) : Bool :=
  let rest := do
    let s ← afterHyphen (← hexRun 8 name.toList)
    let s ← afterHyphen (← hexRun 4 s)
    let s ← afterHyphen (← hexRun 4 s)
    let s ← afterHyphen (← hexRun 4 s)
    hexRun 12 s
  rest == some fileExtension

end LicenseId

end LicenseDepot
