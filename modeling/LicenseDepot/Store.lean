import LicenseDepot.Journal.Measure
import LicenseDepot.Listing

/-!
# Stores of licences

A store keeps licences in files: a plain licence as its document and a signed one as its sealed
bytes. Operations on one licence fail when they cannot do what they are asked; to find nothing is
no failure. Operations on a whole store do as much as they can and report the rest.
-/

namespace LicenseDepot.Store

variable {m : Type → Type} [Monad m] [Host m]

/-- Gives the value of a function that does not act, or fails as it does. -/
def orFail {ε α : Type} (wrap : ε → Failure) (r : Except ε α) : ExceptT Failure m α :=
  match r with
  | .ok a => return a
  | .error e => throw (wrap e)

/-- The licence in the file of a path. -/
def readFile (p : Path) : ExceptT ReadFault m License := ExceptT.mk do
  match ← Host.read p with
  | .error e => return .error (.access e)
  | .ok data =>
    match Content.ofBytes data with
    | .error e => return .error (.text e)
    | .ok content => return content.toLicense.mapError .content

/-- The licence in a file of a store (`_read_license`). -/
def readLicense (p : Path) : ExceptT Failure m License :=
  (readFile p).adapt (.unreadable p)

/-- Whether a path leads to something (`Path.exists`, whose own failures are passed on). -/
def holds (p : Path) : ExceptT Failure m Bool := do
  orFail .access (← (Host.holds p : m _))

/-- The file that a licence is looked for in: with an identifier that of the licence in a store
with room for many, without one the file of a store with a single licence. -/
def fileOf (r : Reference) : Option LicenseId → ExceptT Failure m Path
  | some id => orFail .reference (r.licensePath id)
  | none => do
    let p ← orFail .reference r.path
    if r.isMulti then throw (.manyLicenses p) else return p

/-- The licence of a store, if it is there (`retrieve`). -/
def retrieve (r : Reference) (id : Option LicenseId) : ExceptT Failure m (Option License) :=
  measured "license_store.retrieve" (.reference r :: (id.map Subject.id).toList) do
    let p ← fileOf r id
    if ← holds p then return some (← readLicense p)
    else
      storeNotice (m := m) .debug s!"Sin licencia en: {p}"
      return none

/-- Whether there is a file for a licence, whatever is in it (`contains`). -/
def contains (r : Reference) (id : LicenseId) : ExceptT Failure m Bool := do
  holds (← orFail .reference (r.licensePath id))

/-- The directory of a store whose licences can be gone through (`get_iterable`). -/
def directory (r : Reference) : Except Failure Path :=
  match r.path with
  | .error e => .error (.reference e)
  | .ok p => if r.isMulti then .ok p else .error (.notIterable p)

/-- Begins to go through the licence files that are in a directory now. -/
def iterate (directory : Path) : ExceptT Failure m LicenseIterator :=
  return .ofFiles (← licenseFiles directory)

/-- The licences of a store that can be read. -/
def licenses (r : Reference) : ExceptT Failure m (List License) := do
  let p ← orFail id (directory r)
  let it ← iterate p
  let (found, _) ← (it.drain (readLicense (m := m)) : m _)
  return found

/-- The file that a licence is written to. -/
def fileFor (r : Reference) (l : License) : Except Reference.Fault Path :=
  if r.isMulti then r.licensePath l.id else r.path

/-- The bytes that are written for a licence. -/
def bytesFor (l : License) (p : Path) : Except Failure Bytes :=
  match l.fileBytes with
  | .ok data => .ok data
  | .error .maxUsers => .error (.terms .maxUsers)
  | .error e => .error (.unserializable l.id p e)

/-- Writes a licence to a store, in the place of the one that was there (`store`). -/
def store (r : Reference) (l : License) : ExceptT Failure m Unit :=
  measured "license_store.store" [.reference r, .license l] do
    let p ← orFail .reference (fileFor r l)
    let data ← orFail id (bytesFor l p)
    match ← (Host.write p data : m _) with
    | .error .nul => throw (.access .nul)
    | .error e => throw (.unwritable p e)
    | .ok () =>
      storeNotice (m := m) .debug s!"Licencia guardada: {l.id} | {l.kind.toText} | {p}"

/-- Removes a file, if it is there (`_unlink`); what cannot be removed is worth a warning. -/
def removeFile (p : Path) : ExceptT Failure m Unit := do
  match ← (Host.unlink p : m _) with
  | .ok () => return
  | .error .nul => throw (.access .nul)
  | .error (.refused .missing _) => return
  | .error e => storeNotice (m := m) .warning s!"No se pudo borrar [{p}]: {e.message}"

/-- Removes a directory with all that is in it (`rmtree`); what cannot be removed is noted. -/
def removeAll (p : Path) : ExceptT Failure m Unit := do
  match ← (Host.removeTree p : m _) with
  | .ok () => return
  | .error .nul => throw (.access .nul)
  | .error e => storeNotice (m := m) .debug s!"Borrado del almacén [{p}] incompleto: {e.message}"

/-- Removes a licence by its identifier, or a whole store (`delete`). -/
def delete (r : Reference) : Option LicenseId → ExceptT Failure m Unit
  | some id => do removeFile (← orFail .reference (r.licensePath id))
  | none => do
    let p ← orFail .reference r.path
    if r.isMulti then removeAll p else removeFile p

end LicenseDepot.Store
