import LicenseDepot.LicenseId
import LicenseDepot.Text.Utf8
import LicenseDepot.Timestamp.Basic

/-!
# Licences

A licence is a set of terms: who holds it, what it covers and until when. It comes in two kinds. A
plain one is nothing but its terms; a signed one carries besides them the sealed bytes it came in,
which are never empty. The entries about the licensee are a finite map that remembers the order in
which its names were first written.
-/

namespace LicenseDepot

/-- What was paid for a licence. -/
inductive LicenseType
  | free
  | trial
  | paid
  deriving DecidableEq, Repr

namespace LicenseType

/-- The word for a licence type. -/
def toText : LicenseType → String
  | .free => "FREE"
  | .trial => "TRIAL"
  | .paid => "PAID"

/-- All licence types. -/
def all : List LicenseType :=
  [.free, .trial, .paid]

/-- The licence type of a word, spelled exactly. -/
def ofText? (word : String) : Option LicenseType :=
  all.find? (·.toText == word)

@[simp] theorem ofText?_toText (t : LicenseType) : ofText? t.toText = some t := by
  cases t <;> decide

/-- The report of a word that is no licence type. -/
def unknownMessage (word : String) : String :=
  s!"{Text.quoted word} is not a valid LicenseType"

end LicenseType

/-- What is known of the licensee: values by name, each name once, in the order in which the names
were first written. -/
structure Licensee where
  entries : List (String × String)
  nodup : (entries.map Prod.fst).Nodup
  deriving DecidableEq

namespace Licensee

/-- A licensee of whom nothing is known. -/
def empty : Licensee := ⟨[], by simp⟩

/-- Writes a value under a name: in place if the name is known, else after all others. -/
def put (name value : String) : List (String × String) → List (String × String)
  | [] => [(name, value)]
  | (n, v) :: rest => if n = name then (name, value) :: rest else (n, v) :: put name value rest

theorem mem_names_put {name value n : String} {entries : List (String × String)} :
    n ∈ (put name value entries).map Prod.fst ↔ n = name ∨ n ∈ entries.map Prod.fst := by
  induction entries with
  | nil => simp [put]
  | cons e rest ih =>
    obtain ⟨m, v⟩ := e
    unfold put
    split
    · rename_i h
      subst h
      simp
    · rw [List.map_cons, List.mem_cons, ih, List.map_cons, List.mem_cons]
      simp only
      constructor
      · rintro (h | h | h) <;> simp [h]
      · rintro (h | h | h) <;> simp [h]

theorem nodup_put {name value : String} {entries : List (String × String)}
    (h : (entries.map Prod.fst).Nodup) : ((put name value entries).map Prod.fst).Nodup := by
  induction entries with
  | nil => simp [put]
  | cons e rest ih =>
    obtain ⟨m, v⟩ := e
    rw [List.map_cons, List.nodup_cons] at h
    unfold put
    split
    · rename_i hm
      subst hm
      simpa using h
    · rename_i hm
      rw [List.map_cons, List.nodup_cons, mem_names_put]
      exact ⟨by simp [hm, h.1], ih h.2⟩

/-- The licensee with a value written under a name. -/
def insert (l : Licensee) (name value : String) : Licensee :=
  ⟨put name value l.entries, nodup_put l.nodup⟩

/-- The licensee described by a list of entries; the last value under a name counts. -/
def ofList (entries : List (String × String)) : Licensee :=
  entries.foldl (fun l e => l.insert e.1 e.2) empty

/-- The value under a name. -/
def get? (l : Licensee) (name : String) : Option String :=
  l.entries.lookup name

/-- Whether two licensees have the same values under the same names, in whatever order. -/
def same (l m : Licensee) : Bool :=
  l.entries.length == m.entries.length && l.entries.all fun e => m.get? e.1 == some e.2

end Licensee

/-- The terms of a licence. -/
structure Terms where
  id : LicenseId
  type : LicenseType := .free
  licensee : Licensee := .empty
  features : List String := []
  expiration : Option Timestamp := none
  maxUsers : Option Int := none
  deriving DecidableEq

/-- Whether two expiry dates are the same. -/
def sameExpiration : Option Timestamp → Option Timestamp → Bool
  | none, none => true
  | some s, some t => s.same t
  | _, _ => false

/-- Whether two licences have the same terms. -/
def Terms.same (s t : Terms) : Bool :=
  s.id == t.id && s.type == t.type && s.licensee.same t.licensee && s.features == t.features
    && sameExpiration s.expiration t.expiration && s.maxUsers == t.maxUsers

/-- The two kinds of licence. -/
inductive LicenseKind
  | plain
  | signed
  deriving DecidableEq, Repr

/-- The word for a kind of licence. -/
def LicenseKind.toText : LicenseKind → String
  | .plain => "plain"
  | .signed => "signed"

/-- A licence of either kind. -/
inductive License
  /-- A licence that is its terms. -/
  | plain (terms : Terms)
  /-- A licence together with the sealed bytes it came in. -/
  | signed (terms : Terms) (sealed : Bytes) (nonempty : sealed ≠ [])
  deriving DecidableEq

namespace License

/-- The terms of a licence of either kind. -/
def terms : License → Terms
  | .plain t => t
  | .signed t _ _ => t

/-- The identifier of a licence. -/
def id (l : License) : LicenseId :=
  l.terms.id

/-- The kind of a licence. -/
def kind : License → LicenseKind
  | .plain _ => .plain
  | .signed _ _ _ => .signed

/-- The sealed bytes of a licence, if it is signed. -/
def sealed? : License → Option Bytes
  | .plain _ => none
  | .signed _ bytes _ => some bytes

/-- The same licence without its sealed bytes. -/
def unsigned (l : License) : License :=
  .plain l.terms

/-- The report of a signed licence without sealed bytes. -/
def unsealedMessage (id : LicenseId) : String :=
  s!"La licencia firmada {id} no trae su sobre codificado."

/-- The signed licence of some terms and sealed bytes, unless there are none of these. -/
def ofSealed? (terms : Terms) (bytes : Bytes) : Option License :=
  if h : bytes ≠ [] then some (.signed terms bytes h) else none

/-- Whether two licences are the same: of one kind, with the same terms and the same sealed
bytes. -/
def same (l m : License) : Bool :=
  l.kind == m.kind && l.terms.same m.terms && l.sealed? == m.sealed?

end License

end LicenseDepot
