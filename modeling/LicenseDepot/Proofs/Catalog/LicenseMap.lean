import LicenseDepot.License
import LicenseDepot.Proofs.LicenseId.Canonical
import Mathlib.Data.List.Nodup

/-!
# Finite maps of licences

A finite map from identifiers to licences, each of them under its own identifier, kept as the list
of its values in increasing order of identifiers. What is found under an identifier after a change
is told by `get?_put` and `get?_remove`.
-/

namespace LicenseDepot

/-- Licences by their identifiers. -/
structure LicenseMap where
  licenses : List License
  sorted : licenses.Pairwise fun l k => l.id.value < k.id.value

namespace LicenseMap

variable {m : LicenseMap} {l k : License} {id : LicenseId}

/-- The map without any licence. -/
def empty : LicenseMap := ⟨[], .nil⟩

/-- The licence under an identifier. -/
def get? (m : LicenseMap) (id : LicenseId) : Option License :=
  m.licenses.find? fun l => decide (l.id = id)

/-- The map with a licence under its identifier, in the place of the one that was there. -/
def put (m : LicenseMap) (l : License) : LicenseMap where
  licenses := m.licenses.filter (fun k => decide (k.id.value < l.id.value))
    ++ l :: m.licenses.filter (fun k => decide (l.id.value < k.id.value))
  sorted := by
    rw [List.pairwise_append, List.pairwise_cons]
    refine ⟨m.sorted.filter _, ⟨?_, m.sorted.filter _⟩, ?_⟩
    · intro k hk
      simpa using (List.mem_filter.1 hk).2
    · intro j hj k hk
      have hjl : j.id.value < l.id.value := by simpa using (List.mem_filter.1 hj).2
      rcases List.mem_cons.1 hk with rfl | hk
      · exact hjl
      · have hlk : l.id.value < k.id.value := by simpa using (List.mem_filter.1 hk).2
        exact BitVec.lt_trans hjl hlk

/-- The map without the licence under an identifier. -/
def remove (m : LicenseMap) (id : LicenseId) : LicenseMap :=
  ⟨m.licenses.filter fun l => decide (l.id ≠ id), m.sorted.filter _⟩

theorem nodup_ids (m : LicenseMap) : (m.licenses.map License.id).Nodup := by
  refine List.pairwise_map.2 (m.sorted.imp fun hlt heq => ?_)
  rw [heq] at hlt
  exact BitVec.lt_irrefl _ hlt

/-- A licence is found under its own identifier, and under no other one. -/
theorem get?_eq_some_iff : m.get? id = some l ↔ l ∈ m.licenses ∧ l.id = id := by
  constructor
  · intro h
    exact ⟨List.mem_of_find?_eq_some h, by simpa using List.find?_some h⟩
  · rintro ⟨hmem, rfl⟩
    cases hfound : m.get? l.id with
    | none => exact absurd (List.find?_eq_none.1 hfound l hmem) (by simp)
    | some k =>
      have hid : k.id = l.id := by simpa using List.find?_some hfound
      rw [List.inj_on_of_nodup_map m.nodup_ids (List.mem_of_find?_eq_some hfound) hmem hid]

theorem mem_put : k ∈ (m.put l).licenses ↔ k = l ∨ k ∈ m.licenses ∧ k.id ≠ l.id := by
  simp only [put, List.mem_append, List.mem_cons, List.mem_filter, decide_eq_true_eq]
  rw [LicenseId.ne_iff_lt_or_gt]
  tauto

theorem mem_remove : k ∈ (m.remove id).licenses ↔ k ∈ m.licenses ∧ k.id ≠ id := by
  rw [remove, List.mem_filter, decide_eq_true_iff]

/-- After a licence has been put into a map, it is under its identifier, and under all others is
what was there. -/
theorem get?_put (m : LicenseMap) (l : License) (id : LicenseId) :
    (m.put l).get? id = if id = l.id then some l else m.get? id := by
  apply Option.ext
  intro k
  rw [get?_eq_some_iff, mem_put]
  split
  · rename_i hid
    subst hid
    constructor
    · rintro ⟨rfl | ⟨-, hne⟩, hk⟩
      · rfl
      · exact absurd hk hne
    · rintro ⟨⟩
      exact ⟨.inl rfl, rfl⟩
  · rename_i hid
    rw [get?_eq_some_iff]
    constructor
    · rintro ⟨rfl | ⟨hmem, -⟩, hk⟩
      · exact absurd hk.symm hid
      · exact ⟨hmem, hk⟩
    · rintro ⟨hmem, rfl⟩
      exact ⟨.inr ⟨hmem, hid⟩, rfl⟩

/-- After a licence has been removed from a map, there is none under its identifier, and under all
others is what was there. -/
theorem get?_remove (m : LicenseMap) (id id' : LicenseId) :
    (m.remove id).get? id' = if id' = id then none else m.get? id' := by
  apply Option.ext
  intro k
  rw [get?_eq_some_iff, mem_remove]
  split
  · rename_i hid
    subst hid
    constructor
    · rintro ⟨⟨-, hne⟩, hk⟩
      exact absurd hk hne
    · rintro ⟨⟩
  · rename_i hid
    rw [get?_eq_some_iff]
    constructor
    · rintro ⟨⟨hmem, -⟩, hk⟩
      exact ⟨hmem, hk⟩
    · rintro ⟨hmem, rfl⟩
      exact ⟨⟨hmem, hid⟩, rfl⟩

end LicenseMap

end LicenseDepot
