import LicenseDepot.Text.Utf8

/-!
# Paths

A path is where it starts from and the names it passes through. Reading one drops empty names and
single points, which lead nowhere, and keeps double points, which may not lead back where a link
was followed. A path that passes through no name is written as a single point, or as the slashes it
starts from. Names are texts: one whose bytes are no UTF-8, which a path can spell where texts may
hold halves of surrogate pairs, is not considered.
-/

namespace LicenseDepot

/-- Where a path starts from. -/
inductive Anchor
  /-- The working directory. -/
  | here
  /-- The root. -/
  | root
  /-- The root, written with two slashes. -/
  | doubled
  deriving DecidableEq, Repr

/-- A path to a file, a directory or a link (`PurePosixPath`). -/
structure Path where
  anchor : Anchor
  parts : List String
  deriving DecidableEq, Repr

namespace Path

/-- The pieces of a text between slashes; there is always one more than there are slashes. -/
def splitSlashes : List Char → List (List Char)
  | [] => [[]]
  | c :: s =>
    if c = '/' then [] :: splitSlashes s
    else
      match splitSlashes s with
      | [] => [[c]]
      | piece :: rest => (c :: piece) :: rest

/-- Whether a piece of a path leads anywhere. -/
def leads (piece : List Char) : Bool :=
  !piece.isEmpty && piece != ['.']

/-- Where the path of a text starts from. -/
def anchorOf : List Char → Anchor
  | '/' :: '/' :: '/' :: _ => .root
  | '/' :: '/' :: _ => .doubled
  | '/' :: _ => .root
  | _ => .here

/-- The path of a text. -/
def ofText (s : String) : Path :=
  ⟨anchorOf s.toList, ((splitSlashes s.toList).filter leads).map String.ofList⟩

/-- The slashes that a path starts with. -/
def Anchor.text : Anchor → String
  | .here => ""
  | .root => "/"
  | .doubled => "//"

/-- The text of a path. -/
def toText (p : Path) : String :=
  match p.anchor, p.parts with
  | .here, [] => "."
  | anchor, parts => Anchor.text anchor ++ "/".intercalate parts

instance : ToString Path := ⟨toText⟩

/-- The path of a name in the directory of a path. -/
def child (p : Path) (name : String) : Path :=
  { p with parts := p.parts ++ [name] }

/-- The path without its last name. -/
def parent (p : Path) : Path :=
  { p with parts := p.parts.dropLast }

/-- Whether the path holds a character that no file system takes. -/
def hasNul (p : Path) : Bool :=
  p.parts.any fun part => part.toList.contains '\x00'

/-- The number of bytes of a text. -/
def byteLength (s : String) : Nat :=
  (Text.Utf8.encode s.toList).length

end Path

end LicenseDepot
