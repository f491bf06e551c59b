import LicenseDepot.Text.Hex

/-!
# UTF-8

The writer gives each character its one to four bytes. The reader accepts exactly what the writer
produces and reports the first byte sequence that is none of it: where it starts, how many bytes
belong to it, and what is wrong with them. A faulty sequence is as long as the prefix of a
well-formed character that it shares, so a character cut short by the end of the data is told
apart from one that continues wrongly.
-/

namespace LicenseDepot

/-- A string of bytes. -/
abbrev Bytes := List UInt8

namespace Text.Utf8

/-- The bytes of a code point. -/
def encodeNat (n : Nat) : Bytes :=
  if n < 0x80 then [UInt8.ofNat n]
  else if n < 0x800 then [UInt8.ofNat (0xC0 + n / 0x40), UInt8.ofNat (0x80 + n % 0x40)]
  else if n < 0x10000 then
    [UInt8.ofNat (0xE0 + n / 0x1000), UInt8.ofNat (0x80 + n / 0x40 % 0x40),
      UInt8.ofNat (0x80 + n % 0x40)]
  else
    [UInt8.ofNat (0xF0 + n / 0x40000), UInt8.ofNat (0x80 + n / 0x1000 % 0x40),
      UInt8.ofNat (0x80 + n / 0x40 % 0x40), UInt8.ofNat (0x80 + n % 0x40)]

/-- The bytes of a text. -/
def encode (s : List Char) : Bytes :=
  s.flatMap fun c => encodeNat c.toNat

@[simp] theorem encode_nil : encode [] = [] := rfl

@[simp] theorem encode_cons (c : Char) (s : List Char) :
    encode (c :: s) = encodeNat c.toNat ++ encode s := rfl

@[simp] theorem encode_append (s t : List Char) : encode (s ++ t) = encode s ++ encode t := by
  simp [encode]

/-- What is wrong with a byte sequence. -/
inductive Defect
  /-- No character begins with this byte. -/
  | start
  /-- The byte after the sequence does not continue it. -/
  | continuation
  /-- The data ends inside a character. -/
  | ending
  deriving DecidableEq, Repr

/-- The first faulty sequence of some data: its offset, its bytes and its defect. -/
structure Fault where
  offset : Nat
  bytes : Bytes
  defect : Defect
  deriving DecidableEq, Repr

/-- Whether a byte lies in a closed range. -/
def within (range : Nat × Nat) (b : UInt8) : Bool :=
  decide (range.1 ≤ b.toNat) && decide (b.toNat ≤ range.2)

/-- The range of a byte that continues a character. -/
def continuing : Nat × Nat :=
  (0x80, 0xBF)

/-- The payload of a leading byte and the ranges of the bytes that have to follow it, if any
character begins with it. The range of the second byte is narrowed where the general one would
spell an overlong form, a surrogate or a code point past the last one. -/
def lead? (n : Nat) : Option (Nat × List (Nat × Nat)) :=
  if n < 0x80 then some (n, [])
  else if n < 0xC2 then none
  else if n < 0xE0 then some (n % 0x20, [continuing])
  else if n = 0xE0 then some (n % 0x10, [(0xA0, 0xBF), continuing])
  else if n = 0xED then some (n % 0x10, [(0x80, 0x9F), continuing])
  else if n < 0xF0 then some (n % 0x10, [continuing, continuing])
  else if n = 0xF0 then some (n % 8, [(0x90, 0xBF), continuing, continuing])
  else if n < 0xF4 then some (n % 8, [continuing, continuing, continuing])
  else if n = 0xF4 then some (n % 8, [(0x80, 0x8F), continuing, continuing])
  else none

/-- Reads the bytes that continue a character. `seen` holds its bytes so far and `n` their
payload; each further byte adds six bits. -/
def decodeTail (seen : Bytes) (n : Nat) :
    List (Nat × Nat) → Bytes → Except (Bytes × Defect) (Char × Bytes)
  | [], rest => .ok (Char.ofNat n, rest)
  | _ :: _, [] => .error (seen, .ending)
  | range :: ranges, b :: rest =>
    if within range b then decodeTail (seen ++ [b]) (n * 0x40 + b.toNat % 0x40) ranges rest
    else .error (seen, .continuation)

/-- The first character of some data and what follows it, or the faulty sequence at its start. -/
def decodeChar (lead : UInt8) (rest : Bytes) : Except (Bytes × Defect) (Char × Bytes) :=
  match lead? lead.toNat with
  | none => .error ([lead], .start)
  | some (n, ranges) => decodeTail [lead] n ranges rest

theorem length_le_of_decodeTail {seen rest after : Bytes} {n : Nat} {ranges : List (Nat × Nat)}
    {c : Char} (h : decodeTail seen n ranges rest = .ok (c, after)) :
    after.length ≤ rest.length := by
  induction ranges generalizing seen n rest with
  | nil =>
    simp only [decodeTail, Except.ok.injEq, Prod.mk.injEq] at h
    simp [h.2]
  | cons range ranges ih =>
    cases rest with
    | nil => simp [decodeTail] at h
    | cons b rest =>
      simp only [decodeTail] at h
      split at h
      · have := ih h
        simp
        omega
      · simp at h

theorem length_le_of_decodeChar {lead : UInt8} {rest after : Bytes} {c : Char}
    (h : decodeChar lead rest = .ok (c, after)) : after.length ≤ rest.length := by
  unfold decodeChar at h
  split at h
  · simp at h
  · exact length_le_of_decodeTail h

/-- Reads the data from an offset on; `done` holds the characters read so far, last one first. -/
def decodeFrom (offset : Nat) (done : List Char) (data : Bytes) : Except Fault (List Char) :=
  match data with
  | [] => .ok done.reverse
  | lead :: rest =>
    match h : decodeChar lead rest with
    | .error (bytes, defect) => .error ⟨offset, bytes, defect⟩
    | .ok (c, after) =>
      have := length_le_of_decodeChar h
      decodeFrom (offset + c.utf8Size) (c :: done) after
termination_by data.length
decreasing_by simp; omega

/-- The text that some data encodes. -/
def decode (data : Bytes) : Except Fault (List Char) :=
  decodeFrom 0 [] data

/-- What a defect is called. -/
def Defect.message : Defect → String
  | .start => "invalid start byte"
  | .continuation => "invalid continuation byte"
  | .ending => "unexpected end of data"

/-- The report of a fault: one byte is shown, several are given by their positions. -/
def Fault.message (fault : Fault) : String :=
  let place :=
    match fault.bytes with
    | [b] => s!"byte 0x{String.ofList (hex 2 b.toNat)} in position {fault.offset}"
    | bytes => s!"bytes in position {fault.offset}-{fault.offset + bytes.length - 1}"
  s!"'utf-8' codec can't decode {place}: {fault.defect.message}"

end Text.Utf8

end LicenseDepot
