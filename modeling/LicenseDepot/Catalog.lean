import LicenseDepot.Store

/-!
# The catalogue of installed licences

What a user does with a store (`LicenseCatalog`): install, find, list, uninstall and import
licences, and purge the store. Each change is noted in the journal once it is done.
-/

namespace LicenseDepot.Catalog

variable {m : Type → Type} [Monad m] [Host m]

/-- Notes what has been done. -/
def note (message : String) : ExceptT Failure m Unit :=
  ExceptT.lift (Host.report (.record .catalog .info message))

/-- Installs a licence. -/
def install (r : Reference) (l : License) : ExceptT Failure m Unit := do
  Store.store r l
  note s!"[INSTALL] Licencia {l.id} ({l.kind.toText})"

/-- Finds a licence by its identifier, or the one of a store with a single licence. -/
def find (r : Reference) (id : Option LicenseId) : ExceptT Failure m (Option License) :=
  Store.retrieve r id

/-- All licences that can be read. -/
def installed (r : Reference) : ExceptT Failure m (List License) := do
  let found ← Store.licenses r
  note s!"Licencias legibles en el almacén: {found.length}"
  return found

/-- Removes a licence, readable or not, and tells whether it was there. -/
def uninstall (r : Reference) (id : LicenseId) : ExceptT Failure m Bool := do
  let existed ← Store.contains r id
  Store.delete r (some id)
  if existed then note s!"[UNINSTALL] Licencia {id}"
  return existed

/-- Installs the licence in a file from anywhere (`import_file`). -/
def importFile (r : Reference) (source : Path) : ExceptT Failure m License := do
  let l ← (Store.readFile source).adapt (.notImported source)
  install r l
  return l

/-- Removes a whole store. -/
def purge (r : Reference) : ExceptT Failure m Unit := do
  Store.delete r none
  note "[PURGE] Almacén eliminado"

end LicenseDepot.Catalog
