import LicenseDepot.Files.Path
import LicenseDepot.LicenseId

/-!
# References to stores

A reference names a place where licences are kept. A file reference is a directory with a file for
each licence or, if it is single, one file with one licence. Any other kind of reference is opaque:
it has a name and cannot be resolved. Whatever is not said to be single counts as having room for
many licences.
-/

namespace LicenseDepot

/-- A reference to a store of licences. -/
inductive Reference
  | file (path : Path) (multi : Bool)
  | opaqueKind (name : String)
  deriving DecidableEq, Repr

namespace Reference

/-- Why a reference does not lead where it is asked to. -/
inductive Fault
  /-- References of this kind cannot be resolved. -/
  | unsupported (kind : String)
  /-- The store at the path holds a single licence. -/
  | single (path : Path)
  deriving DecidableEq, Repr

/-- Whether the store has room for many licences (`is_multi`). -/
def isMulti : Reference → Bool
  | .file _ multi => multi
  | .opaqueKind _ => true

/-- The word for the number of licences a store has room for. -/
def mode (r : Reference) : String :=
  if r.isMulti then "multi" else "single"

/-- What a reference is called in reports: its path, or the name of its kind. -/
def target : Reference → String
  | .file path _ => path.toText
  | .opaqueKind name => name

/-- The path of a reference (`resolve_path`). -/
def path : Reference → Except Fault Path
  | .file path _ => .ok path
  | .opaqueKind name => .error (.unsupported name)

/-- The path of the file that holds a licence in a store with room for many
(`license_file_path`). -/
def licensePath (r : Reference) (id : LicenseId) : Except Fault Path :=
  r.path.bind fun directory =>
    if r.isMulti then .ok (directory.child id.fileName) else .error (.single directory)

end Reference

end LicenseDepot
