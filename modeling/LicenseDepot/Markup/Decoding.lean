import LicenseDepot.Markup.Coding
import LicenseDepot.Markup.Declaration
import LicenseDepot.Text.Utf8

/-!
# The characters of a document

A document is read from the UTF-8 bytes of its text, and its declaration may say that these bytes
are to be read differently. Four encodings are built in. Any other name is looked up among the
codings with one byte for each character; the names that lead to none of them are reported as such,
and not as a fault of the document.
-/

namespace LicenseDepot.Markup

open Text

/-- Why a declared encoding cannot be used. -/
inductive EncodingFault
  /-- No coding has this name. -/
  | unknown (name : List Char)
  /-- The coding of this name is none of text. -/
  | transform (name : List Char)
  /-- The coding has more than one byte for some characters. -/
  | wide
  /-- The coding stops at the first byte past ASCII. -/
  | narrow
  /-- The coding of this name does not read single bytes. -/
  | refusing (name : List Char)
  deriving DecidableEq, Repr

/-- The report of an encoding that cannot be used. -/
def EncodingFault.message : EncodingFault → String
  | .unknown name => s!"unknown encoding: {String.ofList name}"
  | .transform name =>
    s!"'{String.ofList name}' is not a text encoding; "
      ++ "use codecs.decode() to handle arbitrary codecs"
  | .wide => "multi-byte encodings are not supported"
  | .narrow => "'ascii' codec can't decode byte 0x80 in position 82: ordinal not in range(128)"
  | .refusing name =>
    let reason :=
      if normalName name = "idna".toList then "Unsupported error handling replace"
      else "undefined encoding"
    s!"decoding with '{String.ofList name}' codec failed (UnicodeError: {reason})"

/-- Why a document cannot be read. -/
inductive DocumentFault
  /-- The document is not well formed. -/
  | malformed (fault : Malformed)
  /-- The document declares an encoding that cannot be used. -/
  | encoding (fault : EncodingFault)
  deriving DecidableEq, Repr

/-- The order of the bytes of a two-byte unit. -/
inductive ByteOrder
  | big
  | little
  deriving DecidableEq, Repr

/-- The two-byte units of some bytes, which have to come in pairs. -/
def units? (order : ByteOrder) : Bytes → Option (List Nat)
  | [] => some []
  | [_] => none
  | a :: b :: rest =>
    let unit := match order with
      | .big => a.toNat * 256 + b.toNat
      | .little => b.toNat * 256 + a.toNat
    (units? order rest).map (unit :: ·)

/-- The characters of two-byte units; two surrogates make one character. -/
def ofUnits? : List Nat → Option (List Char)
  | [] => some []
  | u :: rest =>
    if 0xD800 ≤ u ∧ u < 0xDC00 then
      match rest with
      | v :: more =>
        if 0xDC00 ≤ v ∧ v < 0xE000 then
          (ofUnits? more).map (Char.ofNat (0x10000 + (u - 0xD800) * 0x400 + (v - 0xDC00)) :: ·)
        else none
      | [] => none
    else if 0xDC00 ≤ u ∧ u < 0xE000 then none
    else (ofUnits? rest).map (Char.ofNat u :: ·)

/-- The characters of some bytes, given the character of each byte past ASCII. -/
def ofBytes? (upper : Nat → Option Char) (missing : List Char) (bytes : Bytes) :
    Option (List Char) :=
  bytes.mapM fun b =>
    if b.toNat < 0x80 then
      let c := Char.ofNat b.toNat
      if missing.contains c then none else some c
    else upper (b.toNat - 0x80)

/-- The upper half of a coding as a function; the replacement character stands for none. -/
def upperHalf (upper : String) : Nat → Option Char :=
  let table := upper.toList.toArray
  fun n => (table[n]?).filter (· != '\ufffd')

/-- The names of the built-in encodings, in lower case. -/
inductive BuiltIn
  | utf8
  | latin1
  | ascii
  | utf16 (order : Option ByteOrder)
  deriving DecidableEq, Repr

/-- The built-in encoding of a name, in any case. -/
def BuiltIn.ofName? (name : List Char) : Option BuiltIn :=
  [("utf-8".toList, BuiltIn.utf8), ("iso-8859-1".toList, .latin1), ("us-ascii".toList, .ascii),
    ("utf-16".toList, .utf16 none), ("utf-16be".toList, .utf16 (some .big)),
    ("utf-16le".toList, .utf16 (some .little))].lookup (name.map Char.toLower)

/-- The characters of the text `rest` whose bytes are to be read in the encoding of a name. -/
def reread (name : List Char) (rest : List Char) : Except DocumentFault (List Char) :=
  let orElse := fun (s : Option (List Char)) => match s with
    | some s => Except.ok s
    | none => .error (.malformed .character)
  match BuiltIn.ofName? name with
  | some .utf8 => .ok rest
  | some .latin1 => .ok ((Utf8.encode rest).map fun b => Char.ofNat b.toNat)
  | some .ascii => orElse (ofBytes? (fun _ => none) [] (Utf8.encode rest))
  | some (.utf16 _) => .error (.malformed .encoding)
  | none =>
    match (coding? name).map Coding.kind with
    | none => .error (.encoding (.unknown name))
    | some (.page upper missing) => orElse (ofBytes? (upperHalf upper) missing (Utf8.encode rest))
    | some .foreign => .error (.malformed .encoding)
    | some .wide => .error (.encoding .wide)
    | some .transform => .error (.encoding (.transform name))
    | some .narrow => .error (.encoding .narrow)
    | some .refusing => .error (.encoding (.refusing name))

/-- The encoding that a document in two-byte units may declare: none other than its own. -/
def checkUnits (order : ByteOrder) (declared : Option (List Char)) : Except DocumentFault Unit :=
  match declared with
  | none => .ok ()
  | some name =>
    match BuiltIn.ofName? name with
    | some (.utf16 none) => .ok ()
    | some (.utf16 (some o)) => if o = order then .ok () else .error (.malformed .encoding)
    | some _ => .error (.malformed .encoding)
    | none => (reread name []).bind fun _ => .error (.malformed .encoding)

/-- The byte order of a document in two-byte units: a zero byte comes first or second. -/
def byteOrder? : Bytes → Option ByteOrder
  | a :: b :: _ => if a = 0 then some .big else if b = 0 then some .little else none
  | _ => none

/-- The text of a document without the mark of its byte order. -/
def dropMarkOfOrder : List Char → List Char
  | c :: s => if c = '\ufeff' then s else c :: s
  | [] => []

/-- The declaration of a document, and the characters that follow it. All of them have to be
characters that a document may hold. -/
def readCharacters (text : List Char) : Except DocumentFault (Declaration × List Char) := do
  let (declaration, rest) ←
    match byteOrder? (Utf8.encode text) with
    | some order =>
      match (units? order (Utf8.encode text)).bind ofUnits? with
      | none => throw (.malformed .character)
      | some s =>
        let (d, rest) ← (Declaration.read s).mapError .malformed
        checkUnits order d.encoding
        pure (d, rest)
    | none =>
      let (d, rest) ← (Declaration.read (dropMarkOfOrder text)).mapError .malformed
      match d.encoding with
      | none => pure (d, rest)
      | some name => pure (d, ← reread name rest)
  if rest.all isXmlChar then return (declaration, lineEnds rest)
  else throw (.malformed .character)

end LicenseDepot.Markup
