import LicenseDepot.CommandLine.Run
import LicenseDepot.Journal.Desk
import Std.Time.Format

/-!
# The command line

Runs one command on the files of the machine. The journal goes to a file, which is named by the
environment, and its graver records to the console. Everything else that is said here is said
before there is a command to run: how the program is used, and what is wrong with the arguments.
-/

namespace LicenseDepot.CommandLine

open Numeral Text

/-! ## The machine as a host -/

/-- Where reports go. -/
structure Outlet where
  /-- The least level that the console shows. -/
  threshold : Level
  /-- The file that takes all records. -/
  file : IO.FS.Handle
  /-- Whether events are laid out in the tall layout. -/
  tall : Bool

/-- Work on the machine. -/
abbrev Work := ReaderT Outlet IO

/-- The number and the words of an error of the machine. -/
def errorNumber : IO.Error → UInt32 × String
  | .alreadyExists _ n w | .invalidArgument _ n w | .permissionDenied _ n w
  | .resourceExhausted _ n w | .inappropriateType _ n w | .noSuchThing _ n w
  | .interrupted _ n w | .noFileOrDirectory _ n w => (n, w)
  | .otherError n w | .resourceBusy n w | .resourceVanished n w | .unsupportedOperation n w
  | .hardwareFault n w | .unsatisfiedConstraints n w | .illegalOperation n w
  | .protocolError n w | .timeExpired n w => (n, w)
  | .unexpectedEof | .userError _ => (5, "Input/output error")

/-- The fault that an error of the machine stands for; some errors come with a negative number. -/
def faultOf (e : IO.Error) : FileFault :=
  let (number, words) := errorNumber e
  let n := number.toNat
  .ofNumber (if n < 0x80000000 then n else 0x100000000 - n) words

/-- A path as the machine takes it. -/
def entryOf (p : Path) : IO.FS.DirEntry := ⟨".", p.toText⟩

/-- Accesses a path. -/
def attempt {α : Type} (p : Path) (act : IO.FS.DirEntry → IO α) : IO (Except AccessFault α) := do
  if p.hasNul then return .error .nul
  match ← (act (entryOf p)).toBaseIO with
  | .ok a => return .ok a
  | .error e => return .error (.refused (faultOf e) p)

/-- Whether a path leads to something. -/
def askWhether (p : Path) : IO (Except AccessFault Bool) := do
  match ← attempt p fun e => e.path.metadata with
  | .ok _ => return .ok true
  | .error .nul => return .ok false
  | .error (.refused fault q) =>
    return if fault.meansAbsent then .ok false else .error (.refused fault q)
  | .error e => return .error e

/-- Removes a directory with all that is in it; links are not followed. -/
partial def removeWhole (dir : IO.FS.DirEntry) : IO Unit := do
  for e in ← dir.path.readDir do
    match (← e.path.symlinkMetadata).type with
    | .dir => removeWhole e
    | _ => IO.FS.removeFile e.path
  IO.FS.removeDir dir.path

/-- Removes the directory of a path with all that is in it. -/
def removeTreeAt (p : Path) : IO (Except AccessFault Unit) := do
  match ← attempt p fun e => e.path.symlinkMetadata with
  | .error e => return .error e
  | .ok data =>
    match data.type with
    | .dir => attempt p removeWhole
    | .symlink =>
      match ← attempt p fun e => e.path.metadata with
      | .error e => return .error e
      | .ok _ => return .error .throughLink
    | _ => return .error (.unlistable p)

/-- The names in a directory, in increasing order. -/
def namesAt (p : Path) : IO (Except AccessFault (List String)) :=
  attempt p fun e => do
    let names := (← e.path.readDir).toList.map IO.FS.DirEntry.fileName
    return names.mergeSort fun a b => !decide (b < a)

/-- The bytes of memory in use, as the table of processes gives them in pages. -/
def residentBytes : IO (Option Nat) := do
  match ← (IO.FS.readFile "/proc/self/statm").toBaseIO with
  | .error _ => return none
  | .ok text => return ((text.splitOn " ").getD 1 "").toNat?.map (· * 4096)

/-- Eight hexadecimal digits that tell one operation from another. -/
def randomToken : IO String := do
  let bytes ← IO.getRandomBytes 4
  return String.ofList (bytes.toList.flatMap fun b => hex 2 b.toNat)

/-- Writes a record to the file, and to the console if it is grave enough. -/
def writeRecord (outlet : Outlet) (e : Entry) : IO Unit := do
  let now ← Std.Time.PlainDateTime.now
  if outlet.threshold.rank ≤ e.level.rank then
    IO.print { e with time := now.format "HH:mm:ss" }.consoleLine
  outlet.file.putStr { e with time := now.format "uuuu-MM-dd HH:mm:ss,SSS" }.fileLine
  outlet.file.flush

/-- Passes on what is said while an operation runs. -/
def pass (outlet : Outlet) : Notice → IO Unit
  | .record source level message =>
    writeRecord outlet ⟨"", level, source.logger, source.place, message⟩
  | .event e =>
    let source := Source.events
    writeRecord outlet ⟨"", e.recordLevel, source.logger, source.place, e.message outlet.tall⟩
  | .output line => IO.println line
  | .complaint line => IO.eprintln line

instance : Host Work where
  report n := fun outlet => pass outlet n
  stopwatch := fun _ => return .ofRatio false (← IO.monoNanosNow) (Nat.pow 10 9)
  time := fun _ => do
    let now ← Std.Time.Timestamp.now
    return .ofRatio false now.toNanosecondsSinceUnixEpoch.val.natAbs (Nat.pow 10 9)
  memory := fun _ => residentBytes
  token := fun _ => randomToken
  holds p := fun _ => askWhether p
  read p := fun _ => attempt p fun e => return (← IO.FS.readBinFile e.path).toList
  write p content := fun _ => attempt p fun e => IO.FS.writeBinFile e.path ⟨content.toArray⟩
  list p := fun _ => namesAt p
  unlink p := fun _ => attempt p fun e => IO.FS.removeFile e.path
  removeTree p := fun _ => removeTreeAt p

/-! ## The program -/

/-- What the program is called. -/
def programName : String := "licensing-store"

/-- How the program is used. -/
def usage : String :=
  s!"usage: {programName} [-h] --store STORE [--single] [--verbose] "
    ++ "\x7b" ++ ",".intercalate (commandSlots.map Prod.fst) ++ "\x7d ..."

/-- What the help says. -/
def help : String :=
  usage ++ "\n\nGestión de un almacén de licencias\n\n"
    ++ "  --store STORE, -s STORE  Directorio (o archivo con --single) del almacén\n"
    ++ "  --single                 El almacén es un único archivo con una licencia\n"
    ++ "  --verbose, -v            Logs en DEBUG"

/-- Opens the journal and greets its readers. -/
def openJournal (verbose : Bool) : IO Outlet := do
  let file := Desk.chosenFile none (← IO.getEnv "LICENSING_LOG_FILE")
  let here := Path.ofText (← IO.currentDir).toString
  let path := (Path.ofText file).absolute here.parts
  let handle ← IO.FS.Handle.mk (entryOf path).path .append
  let tall := (← IO.getEnv "LICENSING_LOG_FORMAT") == some "PRETTY"
  let outlet : Outlet := ⟨if verbose then .debug else .warning, handle, tall⟩
  writeRecord outlet (Desk.greeting "" "configure" file)
  return outlet

/-- Runs the command of some arguments. -/
def runOnMachine (args : Arguments) : IO UInt32 := do
  let outlet ← openJournal args.verbose
  match ← (run args : ExceptT Failure Work Nat).run.run outlet with
  | .ok code => return code.toUInt32
  | .error e =>
    IO.eprintln s!"{e.typeName}: {e.message}"
    return 1

end LicenseDepot.CommandLine

open LicenseDepot.CommandLine in
/-- Reads the arguments and runs the command that they ask for. -/
def main (line : List String) : IO UInt32 := do
  match Arguments.read line with
  | .ok args => runOnMachine args
  | .error .help =>
    IO.println help
    return 0
  | .error (.usage fault) =>
    IO.eprintln usage
    IO.eprintln s!"{programName}: error: {fault.message}"
    return 2
