import LicenseDepot.Files.Path
import LicenseDepot.Text.Quoted

/-!
# Faults of file access

What the file system says when it cannot do what it is asked, and how that is reported: with its
number, its words and the path concerned.
-/

namespace LicenseDepot

/-- Why the file system refuses an access (`errno`). -/
inductive FileFault
  | missing
  | exists
  | notDirectory
  | isDirectory
  | invalid
  | busy
  | nameTooLong
  | notEmpty
  | linkLoop
  /-- Anything else, with its number and its words. -/
  | other (number : Nat) (words : String)
  deriving DecidableEq, Repr

namespace FileFault

/-- The number of a fault. -/
def number : FileFault → Nat
  | .missing => 2
  | .busy => 16
  | .exists => 17
  | .notDirectory => 20
  | .isDirectory => 21
  | .invalid => 22
  | .nameTooLong => 36
  | .notEmpty => 39
  | .linkLoop => 40
  | .other n _ => n

/-- The words of a fault. -/
def words : FileFault → String
  | .missing => "No such file or directory"
  | .busy => "Device or resource busy"
  | .exists => "File exists"
  | .notDirectory => "Not a directory"
  | .isDirectory => "Is a directory"
  | .invalid => "Invalid argument"
  | .nameTooLong => "File name too long"
  | .notEmpty => "Directory not empty"
  | .linkLoop => "Too many levels of symbolic links"
  | .other _ w => w

/-- The faults that have a name of their own. -/
def named : List FileFault :=
  [.missing, .busy, .exists, .notDirectory, .isDirectory, .invalid, .nameTooLong, .notEmpty,
    .linkLoop]

/-- The fault of a number; the words are kept if the number says nothing more. -/
def ofNumber (number : Nat) (words : String) : FileFault :=
  (named.find? (·.number == number)).getD (.other number words)

@[simp] theorem number_ofNumber (n : Nat) (w : String) : (ofNumber n w).number = n := by
  unfold ofNumber
  cases h : named.find? (·.number == n) with
  | none => rfl
  | some f => simpa using List.find?_some h

/-- What reports call a fault of this kind. -/
def typeName : FileFault → String
  | .missing => "FileNotFoundError"
  | .exists => "FileExistsError"
  | .notDirectory => "NotADirectoryError"
  | .isDirectory => "IsADirectoryError"
  | .other 1 _ | .other 13 _ => "PermissionError"
  | _ => "OSError"

/-- Whether something is said not to be there, for the purpose of asking whether it is: of all
faults, `Path.exists` ignores these. -/
def meansAbsent : FileFault → Bool
  | .missing | .notDirectory | .linkLoop => true
  | _ => false

end FileFault

/-- Why an access to a path fails. -/
inductive AccessFault
  /-- The path holds a character that no file system takes. -/
  | nul
  /-- The file system refuses the access to the path. -/
  | refused (fault : FileFault) (path : Path)
  /-- The file system refuses to list what is no directory, once it is open. -/
  | unlistable (path : Path)
  /-- A whole directory is to be removed through a link. -/
  | throughLink
  deriving DecidableEq, Repr

namespace AccessFault

/-- The report of a failed access. -/
def message : AccessFault → String
  | .nul => "embedded null byte"
  | .refused fault path => s!"[Errno {fault.number}] {fault.words}: {Text.quoted path.toText}"
  | .unlistable path =>
    let fault := FileFault.notDirectory
    s!"[Errno {fault.number}] {fault.words}: PosixPath({Text.quoted path.toText})"
  | .throughLink => "Cannot call rmtree on a symbolic link"

/-- What reports call a failed access. -/
def typeName : AccessFault → String
  | .nul => "ValueError"
  | .refused fault _ => fault.typeName
  | .unlistable _ => FileFault.notDirectory.typeName
  | .throughLink => "OSError"

end AccessFault

end LicenseDepot
