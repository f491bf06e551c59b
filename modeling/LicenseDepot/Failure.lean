import LicenseDepot.Content
import LicenseDepot.Files.Fault
import LicenseDepot.Reference

/-!
# Failures

Everything that an operation on licences can fail with. A failure has a message, the word that
events use for its kind, and, where another failure lies behind it, the word for the kind of that
one. What is wrapped and what is passed on bare is decided where the operations are defined.
-/

namespace LicenseDepot

/-- What can be said of any failure. -/
class Reportable (ε : Type) where
  /-- The word for the kind of failure. -/
  typeName : ε → String
  /-- What happened. -/
  message : ε → String

namespace Content.Fault

/-- The word for the kind of failure that content which is no licence leads to. -/
def typeName : Content.Fault → String
  | .encoding (.unknown _) | .encoding (.transform _) => "LookupError"
  | .encoding .wide => "ValueError"
  | .encoding .narrow => "UnicodeDecodeError"
  | .encoding (.refusing _) => "UnicodeError"
  | _ => "LicenseDecodeError"

/-- The word for the kind of failure behind it. -/
def cause? : Content.Fault → Option String
  | .malformed _ => some "ParseError"
  | .document (.field _) => some "ValueError"
  | .payload => some "UnicodeDecodeError"
  | .encoding (.refusing _) => some "UnicodeError"
  | _ => none

instance : Reportable Content.Fault := ⟨typeName, message⟩

end Content.Fault

namespace LicenseDocument.Fault

/-- The word for the kind of failure that terms which cannot be written lead to. -/
def typeName : LicenseDocument.Fault → String
  | .unrepresentable _ _ => "LicenseEncodeError"
  | .maxUsers => "ValueError"

instance : Reportable LicenseDocument.Fault := ⟨typeName, message⟩

end LicenseDocument.Fault

/-- Why a licence file cannot be read. -/
inductive ReadFault
  /-- The file system refuses. -/
  | access (fault : AccessFault)
  /-- The file begins like a document and is no text. -/
  | text (fault : Text.Utf8.Fault)
  /-- The content of the file is no licence. -/
  | content (fault : Content.Fault)
  deriving DecidableEq, Repr

namespace ReadFault

/-- The report of a file that cannot be read. -/
def message : ReadFault → String
  | .access fault => fault.message
  | .text fault => fault.message
  | .content fault => fault.message

/-- The word for the kind of failure. -/
def typeName : ReadFault → String
  | .access fault => fault.typeName
  | .text _ => "UnicodeDecodeError"
  | .content fault => fault.typeName

/-- The word for the kind of failure behind it. -/
def cause? : ReadFault → Option String
  | .content fault => fault.cause?
  | _ => none

instance : Reportable ReadFault := ⟨typeName, message⟩

end ReadFault

/-- Why an operation on licences fails. -/
inductive Failure
  /-- The reference does not lead where the operation needs it to. -/
  | reference (fault : Reference.Fault)
  /-- A licence is asked for without its identifier in a store with room for many. -/
  | manyLicenses (path : Path)
  /-- A store with a single licence is to be gone through. -/
  | notIterable (path : Path)
  /-- The file of a licence cannot be read. -/
  | unreadable (path : Path) (cause : ReadFault)
  /-- A file cannot be imported. -/
  | notImported (path : Path) (cause : ReadFault)
  /-- The licence cannot be written as a document. -/
  | unserializable (id : LicenseId) (path : Path) (cause : LicenseDocument.Fault)
  /-- The file of a licence cannot be written. -/
  | unwritable (path : Path) (cause : AccessFault)
  /-- The terms of the licence hold a number that is too long to be written. -/
  | terms (cause : LicenseDocument.Fault)
  /-- The file system refuses, and the operation does not say more. -/
  | access (fault : AccessFault)
  /-- There are no more licences. -/
  | exhausted
  /-- Licences cannot be removed while going through them. -/
  | readOnly
  /-- A text is no identifier. -/
  | notAnId (fault : LicenseId.Fault)
  deriving DecidableEq

namespace Failure

/-- The report of a failure. -/
def message : Failure → String
  | .reference (.unsupported kind) =>
    s!"Referencia de almacén no soportada [{kind}] por esta implementación."
  | .reference (.single path) =>
    s!"Referencia inesperada: [{path}] debería ser un almacén de múltiples licencias."
  | .manyLicenses path =>
    s!"Referencia inesperada: [{path}] debería ser un almacén de una sola licencia."
  | .notIterable path => s!"No se puede iterar un almacén de una sola licencia [{path}]."
  | .unreadable path cause => s!"No se pudo leer la licencia de [{path}]: {cause.message}"
  | .notImported path cause => s!"No se pudo importar [{path}]: {cause.message}"
  | .unserializable id _ cause => s!"No se pudo serializar la licencia {id}: {cause.message}"
  | .unwritable path cause => s!"No se pudo escribir la licencia en [{path}]: {cause.message}"
  | .terms cause => cause.message
  | .access fault => fault.message
  | .exhausted => ""
  | .readOnly => "Este iterador no permite borrar licencias."
  | .notAnId fault => fault.message

/-- The word for the kind of failure. -/
def typeName : Failure → String
  | .reference (.unsupported _) => "UnsupportedReferenceKind"
  | .reference (.single _) | .manyLicenses _ | .notIterable _ => "WrongStoreKind"
  | .unreadable _ _ | .notImported _ _ | .unserializable _ _ _ | .unwritable _ _ => "IOFailure"
  | .terms cause => cause.typeName
  | .access fault => fault.typeName
  | .exhausted => "NoSuchElement"
  | .readOnly => "OperationNotSupported"
  | .notAnId _ => "ValueError"

/-- The word for the kind of failure behind it. -/
def cause? : Failure → Option String
  | .unreadable _ cause | .notImported _ cause => some cause.typeName
  | .unserializable _ _ cause => some cause.typeName
  | .unwritable _ cause => some cause.typeName
  | _ => none

/-- The path of the file that could not be read or written. -/
def path? : Failure → Option Path
  | .unreadable path _ | .notImported path _ | .unwritable path _ => some path
  | .unserializable _ path _ => some path
  | _ => none

instance : Reportable Failure := ⟨typeName, message⟩

end Failure

end LicenseDepot
