import LicenseDepot.Envelope
import LicenseDepot.LicenseDocument.Reader
import LicenseDepot.LicenseDocument.Writer

/-!
# The content of a licence file

A file holds a plain licence as the text of a document, or a signed one as an envelope whose
payload is such a text. The first bytes tell which: a document begins with its declaration.
Decoding gives a plain licence for text and a signed one, with all its bytes, for anything else.
-/

namespace LicenseDepot

open Text Markup

/-- What the first bytes of a file make it. -/
inductive ContentKind
  | text
  | binary
  deriving DecidableEq, Repr

namespace ContentKind

/-- The bytes that begin a document. -/
def documentMark : Bytes := [0x3C, 0x3F, 0x78, 0x6D, 0x6C, 0x20]

/-- The kind of some data. -/
def sniff (data : Bytes) : ContentKind :=
  if documentMark.isPrefixOf data then .text else .binary

end ContentKind

/-- The content of a file: text, or bytes that are none. -/
inductive Content
  | text (s : List Char)
  | binary (data : Bytes)
  deriving DecidableEq, Repr

namespace Content

/-- The content of a file with some data. -/
def ofBytes (data : Bytes) : Except Utf8.Fault Content :=
  match ContentKind.sniff data with
  | .text => (Utf8.decode data).map .text
  | .binary => .ok (.binary data)

/-- Why content is no licence. -/
inductive Fault
  /-- The document is not well formed. -/
  | malformed (fault : Malformed)
  /-- The document holds no licence. -/
  | document (fault : LicenseDocument.ContentFault)
  /-- The bytes are no envelope. -/
  | envelope (fault : Envelope.Fault)
  /-- The payload of the envelope is no text. -/
  | payload
  /-- The document declares an encoding that cannot be used. -/
  | encoding (fault : EncodingFault)
  deriving DecidableEq, Repr

/-- What the report says before the reason for which a document is not well formed. -/
def malformedLabel : String := "XML de licencia mal formado: "

/-- The report of content that is no licence. -/
def Fault.message : Fault → String
  | .malformed fault => malformedLabel ++ fault.message
  | .document (.root tag) => s!"Elemento raíz inesperado: <{String.ofList tag}>"
  | .document (.field fault) => s!"Campo de licencia inválido: {fault.message}"
  | .envelope fault => fault.message
  | .payload => "Payload del sobre no es UTF-8"
  | .encoding fault => fault.message

/-- The terms that the text of a document states. -/
def readTerms (s : List Char) : Except Fault Terms :=
  match Element.read s with
  | .error (.malformed fault) => .error (.malformed fault)
  | .error (.encoding fault) => .error (.encoding fault)
  | .ok root => (LicenseDocument.ofElement root).mapError .document

/-- The terms inside an envelope. A coding that stops at the first byte past ASCII counts as a
payload that is no text. -/
def readPayload (payload : Bytes) : Except Fault Terms :=
  match Utf8.decode payload with
  | .error _ => .error .payload
  | .ok s =>
    match readTerms s with
    | .error (.encoding .narrow) => .error .payload
    | r => r

/-- The licence in an envelope. -/
def readSealed (data : Bytes) : Except Fault License :=
  match Envelope.decode data with
  | .error fault => .error (.envelope fault)
  | .ok envelope =>
    (readPayload envelope.payload).bind fun terms =>
      match License.ofSealed? terms data with
      | some l => .ok l
      | none => .error (.envelope (.truncated data.length))

/-- The licence that content holds. -/
def toLicense : Content → Except Fault License
  | .text s => (readTerms s).map .plain
  | .binary data => readSealed data

end Content

namespace License

/-- The document of the terms of a licence, of whatever kind it is. -/
def document (l : License) : Except LicenseDocument.Fault (List Char) :=
  LicenseDocument.write l.terms

/-- The envelope of the document of a licence and a signature. -/
def envelope (l : License) (signature : Bytes) : Except LicenseDocument.Fault Envelope :=
  l.document.map fun s => ⟨Utf8.encode s, signature⟩

theorem encode_envelope_ne_nil (e : Envelope) : e.encode ≠ [] := by
  simp [Envelope.encode, Envelope.magic]

/-- The signed licence with the terms of a licence and a signature. -/
def withSignature (l : License) (signature : Bytes) : Except LicenseDocument.Fault License :=
  (l.envelope signature).map fun e => .signed l.terms e.encode (encode_envelope_ne_nil e)

/-- The bytes of the file that holds a licence. -/
def fileBytes : License → Except LicenseDocument.Fault Bytes
  | .plain t => (LicenseDocument.write t).map Utf8.encode
  | .signed _ bytes _ => .ok bytes

end License

end LicenseDepot
