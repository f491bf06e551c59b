import LicenseDepot.Content
import LicenseDepot.Json.Basic
import LicenseDepot.Reference

/-!
# What an operation is about

The context of an event is gathered from the values that an operation is called with, in order. The
last reference gives the store and its mode, the last licence or identifier the licence, and the
last licence its kind; a path stands in for the store as long as none is known.
-/

namespace LicenseDepot

/-- A value that an operation is called with. -/
inductive Subject
  | reference (r : Reference)
  | license (l : License)
  | id (i : LicenseId)
  | path (p : Path)
  | other (j : Json)

/-- What an event says of the operation it belongs to. -/
structure Context where
  target : String
  mode : Option String
  licenseId : Option String
  kind : Option LicenseKind
  deriving DecidableEq, Repr

namespace Context

/-- The word for a store that is not known. -/
def unknown : String := "unknown"

/-- Before anything is known. -/
def initial : Context := ⟨unknown, none, none, none⟩

/-- The context with one more value taken in, one turn of the loop of `describe_store_call`. -/
def add (c : Context) : Subject → Context
  | .reference r => { c with target := r.target, mode := some r.mode }
  | .license l => { c with licenseId := some l.id.toText, kind := some l.kind }
  | .id i => { c with licenseId := some i.toText }
  | .path p => if c.target = unknown then { c with target := p.toText } else c
  | .other _ => c

/-- The context of the values that an operation is called with (`describe_store_call`). -/
def ofSubjects (subjects : List Subject) : Context :=
  subjects.foldl add initial

/-- The context as members of an object; the kind is there only if a licence is. -/
def members (c : Context) : List (String × Json) :=
  [("target", .text c.target), ("mode", .ofText? c.mode), ("license_id", .ofText? c.licenseId)]
    ++ (c.kind.map fun k => ("kind", Json.text k.toText)).toList

end Context

end LicenseDepot
