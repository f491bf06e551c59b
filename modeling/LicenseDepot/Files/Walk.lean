import LicenseDepot.Files.Fault
import LicenseDepot.Files.Tree

/-!
# Walking along a path

A path is followed step by step, and every link on the way is replaced by the steps of its target.
The number of links that may be followed is limited, which also ends the walk in a tree whose links
lead in a circle: each link uses up one of them, and without links the steps run out.
-/

namespace LicenseDepot

/-- One step of a walk. -/
inductive Step
  /-- To a name in the directory. -/
  | down (name : String)
  /-- To the directory that holds the directory. -/
  | up
  /-- To the directory itself. -/
  | stay
  /-- To the directory itself, asked for by a slash at the end. -/
  | slash
  deriving DecidableEq, Repr

namespace Step

/-- The step that a piece of a path asks for, if it asks for one. -/
def ofPiece? (piece : List Char) : Option Step :=
  if piece.isEmpty then none
  else if piece = ['.'] then some .stay
  else if piece = ['.', '.'] then some .up
  else some (.down (String.ofList piece))

/-- The steps that the target of a link asks for. -/
def ofTarget (target : String) : List Step :=
  let steps := (Path.splitSlashes target.toList).filterMap ofPiece?
  if steps ≠ [] ∧ target.toList.getLast? = some '/' then steps ++ [.slash] else steps

/-- The steps of a path. -/
def ofPath (p : Path) : List Step :=
  p.parts.map fun part => if part = ".." then .up else .down part

end Step

/-- Where a walk ends. -/
inductive Spot
  /-- At something. -/
  | found (l : Location) (n : Node)
  /-- At a name that is free in a directory. -/
  | vacant (parent : Location) (name : String)
  deriving DecidableEq, Repr

/-- What is asked for at the end of a walk. -/
inductive Purpose
  /-- What the path leads to. -/
  | target
  /-- The path itself, even if it is a link. -/
  | itself
  /-- A file to be written, made if need be; it cannot be asked for with a slash at the end. -/
  | writing
  deriving DecidableEq, Repr

/-- The most links that are followed on one walk (`MAXSYMLINKS`). -/
def linkLimit : Nat := 40

/-- The most bytes of a name (`NAME_MAX`). -/
def nameLimit : Nat := 255

/-- The first number of bytes that is too many for a path (`PATH_MAX`). -/
def pathLimit : Nat := 4096

namespace FileTree

/-- Follows steps from a location, with so many links left to follow. -/
def walk (t : FileTree) (purpose : Purpose) (links : Nat) (here : Location) (steps : List Step) :
    Except FileFault Spot :=
  match steps with
  | [] =>
    match t.get? here with
    | some n => .ok (.found here n)
    | none => .error .missing
  | step :: rest =>
    match t.get? here with
    | none => .error .missing
    | some (.file _) | some (.link _) => .error .notDirectory
    | some .directory =>
      match step with
      | .stay | .slash => walk t purpose links here rest
      | .up => walk t purpose links here.dropLast rest
      | .down name =>
        if nameLimit < Path.byteLength name then .error .nameTooLong
        else if purpose = .writing ∧ rest = [.slash] then .error .isDirectory
        else
          match t.get? (here ++ [name]) with
          | none => if rest = [] then .ok (.vacant here name) else .error .missing
          | some (.link target) =>
            if purpose = .itself ∧ rest = [] then .ok (.found (here ++ [name]) (.link target))
            else
              match links with
              | 0 => .error .linkLoop
              | links + 1 =>
                let start := if target.toList.head? = some '/' then [] else here
                walk t purpose links start (Step.ofTarget target ++ rest)
          | some _ => walk t purpose links (here ++ [name]) rest
termination_by (links, steps.length)

end FileTree

/-- A file tree and the directory that paths start from unless they start from the root. -/
structure Disk where
  tree : FileTree
  here : Location

namespace Disk

/-- Where the walk along a path begins. -/
def start (d : Disk) (p : Path) : Location :=
  if p.anchor = .here then d.here else []

/-- Whether a path is one that can be asked for at all. -/
def checkPath (p : Path) : Except AccessFault Unit :=
  if p.hasNul then .error .nul
  else if pathLimit ≤ Path.byteLength p.toText then .error (.refused .nameTooLong p)
  else .ok ()

/-- Follows a path. -/
def locate (d : Disk) (purpose : Purpose) (p : Path) : Except AccessFault Spot := do
  checkPath p
  (d.tree.walk purpose linkLimit (d.start p) (Step.ofPath p)).mapError (.refused · p)

end Disk

end LicenseDepot
