import LicenseDepot.Failure
import LicenseDepot.Host

/-!
# Going through the licences of a store

The licence files of a directory are those with the right name, in order of name. An iterator goes
through a fixed list of files and reads each of them when it gets there: it looks for the next
licence when asked whether there is one, keeps it until it is handed out, and passes over files that
cannot be read, with a warning for each.
-/

namespace LicenseDepot

variable {m : Type → Type} [Monad m] [Host m]

/-- Reports a line of the journal of a store. -/
def storeNotice (level : Level) (message : String) : m Unit :=
  Host.report (.record .store level message)

/-- The licence files of a directory, in order of name (`list_license_files`). A directory that is
missing has none, and neither has one that cannot be listed, which is worth a warning. -/
def licenseFiles (directory : Path) : ExceptT Failure m (List Path) := do
  match ← (Host.list directory : m _) with
  | .ok names => return (names.filter LicenseId.isFileName).map directory.child
  | .error .nul => throw (.access .nul)
  | .error (.refused .missing _) => return []
  | .error (.refused .notDirectory _) =>
    storeNotice (m := m) .warning s!"El almacén no es un directorio: {directory}"
    return []
  | .error fault =>
    storeNotice (m := m) .warning s!"No se pudo listar el almacén [{directory}]: {fault.message}"
    return []

/-- The licences of a list of files that has been gone through in part (`LicenseFileIterator`). -/
structure LicenseIterator where
  /-- The files that have not been read. -/
  files : List Path
  /-- The licence that has been read and not handed out. -/
  pending : Option License

namespace LicenseIterator

/-- Before the first file. -/
def ofFiles (files : List Path) : LicenseIterator := ⟨files, none⟩

/-- The warning about a file that cannot be read. -/
def skipMessage (file : Path) : String :=
  s!"No se pudo leer el archivo de licencia [{file}]."

variable {ε : Type}

/-- Reads files up to the first one that can be read (`_compute_next`). -/
def findNext (read : Path → ExceptT ε m License) : List Path → m LicenseIterator
  | [] => return ⟨[], none⟩
  | file :: rest => do
    match ← (read file).run with
    | .ok l => return ⟨rest, some l⟩
    | .error _ =>
      storeNotice .warning (skipMessage file)
      findNext read rest

/-- Looks for the next licence, unless it has been found. -/
def look (read : Path → ExceptT ε m License) (it : LicenseIterator) : m LicenseIterator :=
  match it.pending with
  | some _ => return it
  | none => findNext read it.files

/-- Whether there is another licence (`has_next`). -/
def hasNext (read : Path → ExceptT ε m License) (it : LicenseIterator) :
    m (Bool × LicenseIterator) := do
  let it ← it.look read
  return (it.pending.isSome, it)

/-- Hands out the next licence (`next`). -/
def next (read : Path → ExceptT ε m License) (it : LicenseIterator) :
    m (Except Failure License × LicenseIterator) := do
  let it ← it.look read
  match it.pending with
  | some l => return (.ok l, { it with pending := none })
  | none => return (.error .exhausted, it)

/-- Licences cannot be removed while going through them. -/
def remove (_ : LicenseIterator) : Except Failure Unit :=
  .error .readOnly

/-- Reads all files that can be read. -/
def readAll (read : Path → ExceptT ε m License) : List Path → m (List License)
  | [] => return []
  | file :: rest => do
    match ← (read file).run with
    | .ok l => return l :: (← readAll read rest)
    | .error _ =>
      storeNotice .warning (skipMessage file)
      readAll read rest

/-- Hands out all licences that are left. -/
def drain (read : Path → ExceptT ε m License) (it : LicenseIterator) :
    m (List License × LicenseIterator) := do
  let rest ← readAll read it.files
  return (it.pending.toList ++ rest, ⟨[], none⟩)

end LicenseIterator

end LicenseDepot
