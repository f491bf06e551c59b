import LicenseDepot.Files.Walk

/-!
# Access to files

What can be done with the files of a tree along a path: asking whether something is there, reading,
writing, listing, removing, and making directories and links. Reading and writing follow links;
removing does not. Each access either fails and leaves the tree as it was, or does one thing, with
one exception: a directory that is to be removed with all that is in it may stay behind empty.
-/

namespace LicenseDepot.Disk

/-- Whether a path leads to something (`Path.exists`). A path that cannot lead anywhere does not. A
walk that follows links would only end at one if it set out from it, as no walk does; like to all
who follow links, that is to be led in a circle. -/
def holds (d : Disk) (p : Path) : Except AccessFault Bool :=
  match d.locate .target p with
  | .ok (.found _ (.link _)) => .ok false
  | .ok (.found _ _) => .ok true
  | .ok (.vacant _ _) => .ok false
  | .error .nul => .ok false
  | .error (.refused fault q) =>
    if fault.meansAbsent then .ok false else .error (.refused fault q)
  | .error e => .error e

/-- The content of the file that a path leads to (`read_bytes`). -/
def read (d : Disk) (p : Path) : Except AccessFault Bytes :=
  match d.locate .target p with
  | .error e => .error e
  | .ok (.found _ (.file content)) => .ok content
  | .ok (.found _ .directory) => .error (.refused .isDirectory p)
  | .ok (.found _ (.link _)) => .error (.refused .linkLoop p)
  | .ok (.vacant _ _) => .error (.refused .missing p)

/-- Writes the file that a path leads to, and makes it if it is not there (`write_bytes`). -/
def write (d : Disk) (p : Path) (content : Bytes) : Except AccessFault Disk :=
  match d.locate .writing p with
  | .error e => .error e
  | .ok (.found l (.file _)) =>
    match l.getLast? with
    | some name => .ok { d with tree := d.tree.put l.dropLast name (.file content) }
    | none => .error (.refused .isDirectory p)
  | .ok (.found _ .directory) => .error (.refused .isDirectory p)
  | .ok (.found _ (.link _)) => .error (.refused .linkLoop p)
  | .ok (.vacant parent name) => .ok { d with tree := d.tree.put parent name (.file content) }

/-- The names in the directory that a path leads to, in increasing order (`iterdir`, sorted). -/
def list (d : Disk) (p : Path) : Except AccessFault (List String) :=
  match d.locate .target p with
  | .error e => .error e
  | .ok (.found l .directory) => .ok ((d.tree.names l).mergeSort fun a b => !decide (b < a))
  | .ok (.found _ _) => .error (.refused .notDirectory p)
  | .ok (.vacant _ _) => .error (.refused .missing p)

/-- Whether a path ends with a name. -/
def endsWithName (p : Path) : Bool :=
  match p.parts.getLast? with
  | some part => part != ".."
  | none => false

/-- Removes the file or the link itself that a path names (`unlink`). -/
def unlink (d : Disk) (p : Path) : Except AccessFault Disk :=
  if endsWithName p then
    match d.locate .itself p with
    | .error e => .error e
    | .ok (.found _ .directory) => .error (.refused .isDirectory p)
    | .ok (.found l _) => .ok { d with tree := d.tree.prune l }
    | .ok (.vacant _ _) => .error (.refused .missing p)
  else
    match d.locate .itself p with
    | .error e => .error e
    | .ok _ => .error (.refused .isDirectory p)

/-- Removes an empty directory by its path (`rmdir`); `.`, `..` and the root cannot be removed. -/
def removeDirectory (d : Disk) (p : Path) : Except AccessFault Disk :=
  match p.anchor, p.parts.getLast? with
  | .here, none => .error (.refused .invalid p)
  | _, none => .error (.refused .busy p)
  | _, some part =>
    if part = ".." then
      (d.locate .itself p).bind fun _ => .error (.refused .notEmpty p)
    else
      match d.locate .itself p with
      | .error e => .error e
      | .ok (.found l .directory) =>
        if (d.tree.names l).isEmpty then .ok { d with tree := d.tree.prune l }
        else .error (.refused .notEmpty p)
      | .ok (.found _ _) => .error (.refused .notDirectory p)
      | .ok (.vacant _ _) => .error (.refused .missing p)

/-- Removes the directory that a path names with all that is in it (`shutil.rmtree`). What is in it
goes first, and may be gone even if the directory itself cannot be removed. Directories are removed
however deep they lie in each other. Where removing them is a recursion and the depth of recursions
is limited, it gives up on about a thousand of them in a row with an error of its own, and what lies
beside them may be gone by then. There is no such limit here. -/
def removeTree (d : Disk) (p : Path) : Disk × Except AccessFault Unit :=
  match d.locate .itself p with
  | .error e => (d, .error e)
  | .ok (.vacant _ _) => (d, .error (.refused .missing p))
  | .ok (.found _ (.file _)) => (d, .error (.unlistable p))
  | .ok (.found _ (.link _)) =>
    match d.locate .target p with
    | .error e => (d, .error e)
    | .ok (.vacant _ _) => (d, .error (.refused .missing p))
    | .ok (.found _ _) => (d, .error .throughLink)
  | .ok (.found l .directory) =>
    let emptied := { d with tree := d.tree.clear l }
    match emptied.removeDirectory p with
    | .ok d => (d, .ok ())
    | .error e => (emptied, .error e)

/-- Writes a node under a free name. -/
def make (d : Disk) (p : Path) (n : Node) : Except AccessFault Disk :=
  match d.locate .itself p with
  | .error e => .error e
  | .ok (.found _ _) => .error (.refused .exists p)
  | .ok (.vacant parent name) => .ok { d with tree := d.tree.put parent name n }

/-- Makes a directory. -/
def makeDirectory (d : Disk) (p : Path) : Except AccessFault Disk :=
  d.make p .directory

/-- Makes a link; its target has to be a text that a path could be. -/
def makeLink (d : Disk) (p : Path) (target : String) : Except AccessFault Disk :=
  if target.toList.contains '\x00' then .error .nul
  else if target = "" then .error (.refused .missing p)
  else if pathLimit ≤ Path.byteLength target then .error (.refused .nameTooLong p)
  else d.make p (.link target)

/-- Makes a directory, and those it is to lie in as far as they are missing. What has been made
stays even if the directory itself cannot be made. `depth` bounds the number of parents. -/
def makeDirectories (depth : Nat) (d : Disk) (p : Path) : Disk × Except AccessFault Unit :=
  match d.makeDirectory p with
  | .ok d => (d, .ok ())
  | .error (.refused .missing q) =>
    match depth with
    | 0 => (d, .error (.refused .missing q))
    | depth + 1 =>
      match makeDirectories depth d p.parent with
      | (d, .error e) =>
        match d.locate .target p.parent with
        | .ok (.found _ .directory) => finish d
        | _ => (d, .error e)
      | (d, .ok _) => finish d
  | .error e => (d, .error e)
where
  /-- Makes the directory now that its parent is there. -/
  finish (d : Disk) : Disk × Except AccessFault Unit :=
    match d.makeDirectory p with
    | .ok d => (d, .ok ())
    | .error e => (d, .error e)

end LicenseDepot.Disk
