import LicenseDepot.Catalog
import LicenseDepot.CommandLine.Arguments
import LicenseDepot.Timestamp.Iso

/-!
# Running a command

Each command is one use of the catalogue. Its result is printed, and the number it ends with is 0
if it was done, 1 if it could not be done or nothing was found, and 2 if it lacks an argument. Any
failure that the depot itself reports is printed; one that only the file system reports is passed
on.
-/

namespace LicenseDepot.CommandLine

variable {m : Type → Type} [Monad m] [Host m]

/-- Prints a line. -/
def say (line : String) : ExceptT Failure m Unit :=
  ExceptT.lift (Host.report (.output line))

/-- Prints a line about something that went wrong. -/
def complain (line : String) : ExceptT Failure m Unit :=
  ExceptT.lift (Host.report (.complaint line))

/-- A text with spaces after it, up to a width. -/
def padEnd (width : Nat) (s : String) : String :=
  s ++ String.ofList (List.replicate (width - s.length) ' ')

/-- A row of the table of licences. -/
def row (id type kind expires : String) : String :=
  s!"{padEnd 36 id} | {padEnd 6 type} | {padEnd 6 kind} | {expires}"

/-- The row of a licence. -/
def licenseRow (l : License) : String :=
  let expires := match l.terms.expiration with
    | some t => String.ofList (Timestamp.isoDate t.date)
    | none => "-"
  row l.id.toText l.terms.type.toText l.kind.toText expires

/-- The reference to the store of a command line. -/
def Arguments.reference (a : Arguments) : Reference :=
  .file (.ofText a.store) (!a.single)

/-- The identifier of a text. -/
def parseId (text : String) : ExceptT Failure m LicenseId :=
  Store.orFail .notAnId (LicenseId.ofString text)

/-- Lists the licences of a store. -/
def runList (r : Reference) : ExceptT Failure m Nat := do
  match ← Catalog.installed r with
  | [] => say "No hay licencias en el almacén."
  | found =>
    say (row "ID" "TIPO" "FORMA" "EXPIRA")
    say (String.ofList (List.replicate 72 '-'))
    for l in found do
      say (licenseRow l)
  return 0

/-- Shows a licence, or says that there is none. -/
def runShow (r : Reference) (id : Option LicenseId) : ExceptT Failure m Nat := do
  match ← Catalog.find r id with
  | none =>
    say "Licencia no encontrada."
    return 1
  | some l =>
    say (licenseRow l)
    for (name, value) in l.terms.licensee.entries do
      say s!"   {name}: {value}"
    if !l.terms.features.isEmpty then
      say ("   features: " ++ ", ".intercalate l.terms.features)
    return 0

/-- Runs a command, and fails as its use of the catalogue does. -/
def runCommand (a : Arguments) : ExceptT Failure m Nat := do
  let r := a.reference
  match a.command with
  | .list => runList r
  | .show text =>
    if a.single then runShow r none
    else
      match text with
      | none | some "" =>
        complain "Falta el id de la licencia."
        return 2
      | some text => runShow r (some (← parseId text))
  | .importFile file =>
    let l ← Catalog.importFile r (.ofText file)
    say s!"Importada: {l.id}"
    return 0
  | .delete text =>
    let removed ← Catalog.uninstall r (← parseId text)
    say (if removed then "Borrada." else "No existía.")
    return 0
  | .purge =>
    Catalog.purge r
    say "Almacén eliminado."
    return 0

/-- Whether a failure is one that the depot itself reports. -/
def isReported : Failure → Bool
  | .access .nul => true
  | .access _ => false
  | _ => true

/-- Runs a command; a failure that the depot reports is printed and ends it with 1. -/
def run (a : Arguments) : ExceptT Failure m Nat :=
  tryCatch (runCommand a) fun e => do
    if isReported e then
      complain s!"Error: {e.message}"
      return 1
    else throw e

end LicenseDepot.CommandLine
