import LicenseDepot.Text.Quoted
import LicenseDepot.Text.Utf8

/-!
# Envelopes

A signed licence travels in an envelope: four letters, a version, the lengths of payload and
signature as four bytes each, most significant first, then the payload and then the signature.
Nothing may follow, so a string of bytes is an envelope in one way at most.
-/

namespace LicenseDepot

/-- A payload and the signature that goes with it. -/
structure Envelope where
  payload : Bytes
  signature : Bytes
  deriving DecidableEq, Repr

namespace Envelope

/-- The letters that begin an envelope. -/
def magic : Bytes := [0x4C, 0x49, 0x43, 0x53]

/-- The version of the format. -/
def version : UInt8 := 1

/-- The number of bytes before the payload. -/
def headerSize : Nat := 13

/-- A number as four bytes, most significant first. -/
def encodeLength (n : Nat) : Bytes :=
  [UInt8.ofNat (n / 0x1000000), UInt8.ofNat (n / 0x10000), UInt8.ofNat (n / 0x100), UInt8.ofNat n]

/-- The number that some bytes spell, most significant first. -/
def decodeLength (bytes : Bytes) : Nat :=
  bytes.foldl (fun n b => n * 256 + b.toNat) 0

/-- The first length that an envelope cannot hold. -/
def lengthLimit : Nat := 0x100000000

/-- The bytes of an envelope. -/
def encode (e : Envelope) : Bytes :=
  magic ++ version :: encodeLength e.payload.length ++ encodeLength e.signature.length
    ++ e.payload ++ e.signature

/-- Whether both lengths can be held by an envelope. -/
def fits (e : Envelope) : Bool :=
  decide (e.payload.length < lengthLimit) && decide (e.signature.length < lengthLimit)

/-- Why some bytes are no envelope. -/
inductive Fault
  /-- There are only this many bytes, fewer than a header has. -/
  | truncated (length : Nat)
  /-- They begin with other letters. -/
  | magic (found : Bytes)
  /-- They are of another version. -/
  | version (found : UInt8)
  /-- The lengths do not add up to the bytes that are there. -/
  | lengths
  deriving DecidableEq, Repr

/-- The report of bytes that are no envelope. -/
def Fault.message : Fault → String
  | .truncated length => s!"Sobre firmado truncado: {length} bytes, cabecera de {headerSize}"
  | .magic found => s!"Firma de sobre desconocida: {Text.quotedBytes found}"
  | .version found => s!"Versión de sobre no soportada: {found.toNat}"
  | .lengths => "Longitudes del sobre firmado inconsistentes"

/-- The envelope that some bytes are. -/
def decode (data : Bytes) : Except Fault Envelope :=
  if data.length < headerSize then .error (.truncated data.length)
  else if data.take 4 ≠ magic then .error (.magic (data.take 4))
  else
    let found := (data.drop 4).headD 0
    if found ≠ version then .error (.version found)
    else
      let payloadLength := decodeLength ((data.drop 5).take 4)
      let signatureLength := decodeLength ((data.drop 9).take 4)
      let body := data.drop headerSize
      if body.length ≠ payloadLength + signatureLength then .error .lengths
      else .ok ⟨body.take payloadLength, body.drop payloadLength⟩

end Envelope

end LicenseDepot
