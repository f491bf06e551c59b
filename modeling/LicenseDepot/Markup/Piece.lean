import LicenseDepot.Markup.Malformed
import LicenseDepot.Markup.Name
import LicenseDepot.Text.Digit

/-!
# Character data with references

Attribute values, the text between tags and the values of entities are runs of characters and
references. A run is read into pieces, one for each character or reference. Five entities need no
declaration; they are pieces like any other and stand for the characters that `predefined` gives.
-/

namespace LicenseDepot.Markup

open Text

/-- One character or reference of a run of character data. -/
inductive Piece
  /-- A character that stands for itself. -/
  | literal (c : Char)
  /-- A reference to a character by its number. -/
  | character (c : Char)
  /-- A reference to an entity by its name. -/
  | entity (name : Name)
  deriving DecidableEq, Repr

/-- The characters that have names in every document. -/
def predefined : List (Name × Char) :=
  [("lt".toList, '<'), ("gt".toList, '>'), ("amp".toList, '&'), ("quot".toList, '"'),
    ("apos".toList, '\'')]

/-- The character of a number, if a document may hold it. -/
def xmlChar? (n : Nat) : Option Char :=
  if h : n.isValidChar then
    let c := Char.ofNatAux n h
    if isXmlChar c then some c else none
  else none

/-- The number that a run of digits of a base spells, if there is at least one. -/
def digitsOf? (base : Nat) : List Char → Option Nat
  | [] => none
  | s => s.foldlM (fun n c => ((alphanumericValue? c).filter (· < base)).map (n * base + ·)) 0

/-- The piece that a reference stands for, given the text between `&` and `;`. -/
def Piece.ofReference? [NameLetters] : List Char → Option Piece
  | '#' :: 'x' :: digits => (digitsOf? 16 digits).bind fun n => (xmlChar? n).map .character
  | '#' :: digits => (digitsOf? 10 digits).bind fun n => (xmlChar? n).map .character
  | name => if isName name then some (.entity name) else none

/-- The text of a reference whose opening has been read and what follows its end. -/
def splitReference? (s : List Char) : Option (List Char × List Char) :=
  match s.dropWhile (· != ';') with
  | [] => none
  | _ :: rest => some (s.takeWhile (· != ';'), rest)

theorem length_of_splitReference? {s body rest : List Char}
    (h : splitReference? s = some (body, rest)) : rest.length < s.length := by
  unfold splitReference? at h
  split at h
  · simp at h
  · rename_i hd
    simp only [Option.some.injEq, Prod.mk.injEq] at h
    have : (s.dropWhile (· != ';')).length ≤ s.length := (List.dropWhile_sublist _).length_le
    rw [hd] at this
    simp at this
    rw [← h.2]
    omega

/-- Reads pieces to the end of a run; `done` holds those read so far, last one first. -/
def piecesFrom [NameLetters] (done : List Piece) (s : List Char) : Except Malformed (List Piece) :=
  match s with
  | [] => .ok done.reverse
  | c :: s =>
    if c = '&' then
      match h : splitReference? s with
      | none => .error .reference
      | some (body, rest) =>
        have := length_of_splitReference? h
        match Piece.ofReference? body with
        | none => .error .reference
        | some piece => piecesFrom (piece :: done) rest
    else piecesFrom (.literal c :: done) s
termination_by s.length

/-- The pieces of a run of character data. -/
def pieces [NameLetters] (s : List Char) : Except Malformed (List Piece) :=
  piecesFrom [] s

/-- Line ends of a document as a reader sees them: a carriage return counts as a line feed, and
together with the line feed after it as a single one. One that a reference or the text of an entity
spells stays as it is. -/
def lineEnds : List Char → List Char
  | [] => []
  | c :: s =>
    if c = '\r' then
      if s.head? = some '\n' then lineEnds s else '\n' :: lineEnds s
    else c :: lineEnds s

end LicenseDepot.Markup
