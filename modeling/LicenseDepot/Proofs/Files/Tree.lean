import LicenseDepot.Files.Tree
import LicenseDepot.Proofs.Outcome
import Mathlib.Data.List.Induction
import Mathlib.Data.List.Nodup

/-!
# What the operations on file trees do

A tree is known by what there is at each location. Writing a node changes one location, removing one
changes those at and below it, and the names in a directory are those with something at them, each
of them once. Main statements: `get?_put`, `get?_prune` and `mem_names_iff`.
-/

namespace LicenseDepot.FileTree

variable {t : FileTree} {l m : Location} {n x : Node}

/-- What is at a location is listed there, but for the root. -/
theorem get?_eq_some_iff : t.get? m = some x ↔ (m = [] ∧ x = .directory) ∨ (m, x) ∈ t.entries := by
  unfold get?
  constructor
  · intro h
    split at h
    · rename_i hm
      exact .inl ⟨hm, (Option.some.inj h).symm⟩
    · exact .inr (mem_of_lookup h)
  · rintro (⟨rfl, rfl⟩ | hmem)
    · rfl
    · obtain ⟨parent, name, hm, -⟩ := t.closed _ hmem
      have hne : m ≠ [] := by
        rintro rfl
        exact absurd hm (by simp)
      rw [if_neg hne]
      exact lookup_eq_some_of_mem t.nodup hmem

theorem isDirectory_iff : t.isDirectory l = true ↔ t.get? l = some .directory := by
  rw [isDirectory, beq_iff_eq]

/-- Where there is at most a file, there is no directory. -/
theorem isDirectory_eq_false (h : ∀ x, t.get? l = some x → ∃ content, x = .file content) :
    t.isDirectory l = false := by
  rw [Bool.eq_false_iff, Ne, isDirectory_iff]
  intro hdir
  obtain ⟨_, heq⟩ := h _ hdir
  cases heq

@[simp] theorem get?_nil : t.get? [] = some .directory := rfl

/-- Whatever there is lies in a directory. -/
theorem isDirectory_parent {parent : Location} {name : String}
    (h : t.get? (parent ++ [name]) = some x) : t.isDirectory parent = true := by
  rw [isDirectory_iff]
  rcases get?_eq_some_iff.1 h with ⟨hnil, -⟩ | hmem
  · simp at hnil
  · obtain ⟨q, m, hqm, hq⟩ := t.closed _ hmem
    obtain ⟨rfl, -⟩ := List.append_inj' hqm rfl
    rcases hq with rfl | hq
    · rfl
    · exact get?_eq_some_iff.2 (.inr hq)

/-- The way up from a directory leads to a directory. -/
theorem get?_dropLast (h : t.get? l = some x) : t.get? l.dropLast = some .directory := by
  rcases List.eq_nil_or_concat' l with rfl | ⟨parent, name, rfl⟩
  · rfl
  · rw [List.dropLast_concat]
    exact isDirectory_iff.1 (isDirectory_parent h)

/-- Whatever lies below a location lies below a directory. -/
theorem get?_of_isPrefix (h : t.get? m = some x) (hpre : l <+: m) (hne : l ≠ m) :
    t.get? l = some .directory := by
  obtain ⟨rest, rfl⟩ := hpre
  induction rest using List.reverseRecOn generalizing x with
  | nil => simp at hne
  | append_singleton rest name ih =>
    rw [← List.append_assoc] at h
    have hparent := isDirectory_iff.1 (isDirectory_parent h)
    by_cases hrest : rest = []
    · rw [hrest, List.append_nil] at hparent
      exact hparent
    · exact ih hparent (by simpa using hrest)

/-- Writing a node changes what there is at its location and nowhere else. -/
theorem get?_put {parent : Location} {name : String} (hparent : t.isDirectory parent = true)
    (hfree : t.isDirectory (parent ++ [name]) = false) (m : Location) :
    (t.put parent name n).get? m = if m = parent ++ [name] then some n else t.get? m := by
  have hentries : (t.put parent name n).entries = written t.entries (parent ++ [name]) n := by
    rw [put, dif_pos ⟨hparent, hfree⟩]
  apply Option.ext
  intro x
  rw [get?_eq_some_iff, hentries, written, List.mem_append, List.mem_filter, List.mem_singleton]
  split
  · rename_i hm
    subst hm
    constructor
    · rintro (⟨hnil, -⟩ | ⟨-, hno⟩ | heq)
      · simp at hnil
      · simp at hno
      · cases heq
        rfl
    · intro h
      cases h
      exact .inr (.inr rfl)
  · rename_i hm
    rw [get?_eq_some_iff]
    simp [hm]

/-- Removing what there is at a location removes all that is below it, and nothing else. -/
theorem get?_prune (hl : l ≠ []) (m : Location) :
    (t.prune l).get? m = if l <+: m then none else t.get? m := by
  apply Option.ext
  intro x
  have hentries : (t.prune l).entries = outside t.entries l := rfl
  rw [get?_eq_some_iff, hentries, outside, List.mem_filter, Bool.not_eq_true',
    ← Bool.not_eq_true, List.isPrefixOf_iff_prefix]
  split
  · rename_i hpre
    constructor
    · rintro (⟨rfl, -⟩ | ⟨-, hno⟩)
      · exact absurd (List.prefix_nil.1 hpre) hl
      · exact absurd hpre hno
    · intro h
      cases h
  · rename_i hno
    rw [get?_eq_some_iff]
    simp [hno]

/-! The names in a directory. -/

/-- The name that a location has directly in a directory. -/
def nameIn (l m : Location) : Option String :=
  match m.getLast? with
  | some name => if m.dropLast = l then some name else none
  | none => none

theorem names_eq (t : FileTree) (l : Location) :
    t.names l = (t.entries.map Prod.fst).filterMap (nameIn l) := by
  rw [List.filterMap_map]
  rfl

theorem nameIn_eq_some_iff {name : String} : nameIn l m = some name ↔ m = l ++ [name] := by
  constructor
  · intro h
    unfold nameIn at h
    split at h
    · rename_i last hlast
      split at h
      · rename_i hfront
        cases h
        rw [← hfront, List.dropLast_append_getLast? _ hlast]
      · cases h
    · cases h
  · rintro rfl
    simp [nameIn]

theorem mem_names_iff {name : String} :
    name ∈ t.names l ↔ ∃ x, t.get? (l ++ [name]) = some x := by
  rw [names_eq, List.mem_filterMap]
  constructor
  · rintro ⟨m, hmem, h⟩
    obtain ⟨⟨m, x⟩, hx, rfl⟩ := List.mem_map.1 hmem
    refine ⟨x, get?_eq_some_iff.2 (.inr ?_)⟩
    rw [← nameIn_eq_some_iff.1 h]
    exact hx
  · rintro ⟨x, hx⟩
    rcases get?_eq_some_iff.1 hx with ⟨hnil, -⟩ | hmem
    · simp at hnil
    · exact ⟨_, List.mem_map_of_mem hmem, nameIn_eq_some_iff.2 rfl⟩

theorem nodup_names (t : FileTree) (l : Location) : (t.names l).Nodup := by
  rw [names_eq]
  apply t.nodup.filterMap
  intro m m' name hm hm'
  rw [nameIn_eq_some_iff.1 hm, nameIn_eq_some_iff.1 hm']

end LicenseDepot.FileTree
