import LicenseDepot.Text.Utf8

/-!
# File trees

A file tree assigns files, links and directories to locations, which are lists of names from the
root down. The root is a directory and is not listed. Two properties are part of the type: no
location is listed twice, and whatever is listed lies directly in a directory. The operations below
keep them, by doing nothing where they could not.
-/

namespace LicenseDepot

/-- A place in a file tree: the names on the way from the root. -/
abbrev Location := List String

/-- What there is at a location. -/
inductive Node
  | file (content : Bytes)
  | link (target : String)
  | directory
  deriving DecidableEq, Repr

/-- Whether what is listed lies in directories that are listed. -/
def IsClosed (entries : List (Location × Node)) : Prop :=
  ∀ e ∈ entries, ∃ parent name, e.1 = parent ++ [name] ∧
    (parent = [] ∨ (parent, Node.directory) ∈ entries)

/-- A tree of files, links and directories. -/
structure FileTree where
  entries : List (Location × Node)
  nodup : (entries.map Prod.fst).Nodup
  closed : IsClosed entries

namespace FileTree

/-- The tree of nothing but the root. -/
def empty : FileTree := ⟨[], by simp, by simp [IsClosed]⟩

/-- What there is at a location, if anything. -/
def get? (t : FileTree) (l : Location) : Option Node :=
  if l = [] then some .directory else t.entries.lookup l

/-- Whether there is a directory at a location. -/
def isDirectory (t : FileTree) (l : Location) : Bool :=
  t.get? l == some .directory

theorem lookup_eq_some_of_mem {entries : List (Location × Node)} {l : Location} {n : Node}
    (nodup : (entries.map Prod.fst).Nodup) (h : (l, n) ∈ entries) :
    entries.lookup l = some n := by
  induction entries with
  | nil => simp at h
  | cons e rest ih =>
    rw [List.map_cons, List.nodup_cons] at nodup
    obtain ⟨m, k⟩ := e
    rcases List.mem_cons.1 h with heq | hmem
    · cases heq
      simp
    · have hne : (l == m) = false := by
        rw [beq_eq_false_iff_ne]
        rintro rfl
        exact nodup.1 (List.mem_map.2 ⟨(l, n), hmem, rfl⟩)
      rw [List.lookup_cons, hne]
      exact ih nodup.2 hmem

theorem nodup_filter {entries : List (Location × Node)} {p : Location × Node → Bool}
    (h : (entries.map Prod.fst).Nodup) : ((entries.filter p).map Prod.fst).Nodup :=
  (List.filter_sublist.map Prod.fst).nodup h

/-- The entries with one written at a location. -/
def written (entries : List (Location × Node)) (l : Location) (n : Node) :
    List (Location × Node) :=
  entries.filter (fun e => e.1 != l) ++ [(l, n)]

theorem nodup_written {entries : List (Location × Node)} {l : Location} {n : Node}
    (h : (entries.map Prod.fst).Nodup) : ((written entries l n).map Prod.fst).Nodup := by
  rw [written, List.map_append, List.nodup_append]
  refine ⟨nodup_filter h, by simp, ?_⟩
  intro a ha b hb
  obtain ⟨e, he, rfl⟩ := List.mem_map.1 ha
  have := (List.mem_filter.1 he).2
  simp only [List.map_cons, List.map_nil, List.mem_singleton] at hb
  subst hb
  simpa using this

theorem isClosed_written {entries : List (Location × Node)} {parent : Location} {name : String}
    {n : Node} (h : IsClosed entries)
    (hp : parent = [] ∨ (parent, Node.directory) ∈ entries)
    (hd : (parent ++ [name], Node.directory) ∉ entries) :
    IsClosed (written entries (parent ++ [name]) n) := by
  intro e he
  have keep : ∀ q : Location, (q, Node.directory) ∈ entries →
      (q, Node.directory) ∈ written entries (parent ++ [name]) n := by
    intro q hq
    refine List.mem_append_left _ (List.mem_filter.2 ⟨hq, ?_⟩)
    simp only [bne_iff_ne, ne_eq]
    rintro rfl
    exact hd hq
  rcases List.mem_append.1 he with hf | hn
  · obtain ⟨q, m, hqm, hq⟩ := h e (List.mem_filter.1 hf).1
    exact ⟨q, m, hqm, hq.imp id (keep q)⟩
  · rw [List.mem_singleton] at hn
    subst hn
    exact ⟨parent, name, rfl, hp.imp id (keep parent)⟩

/-- The tree with a node written under a name in a directory. Nothing is done where there is no
directory to hold it, or where a directory would be lost. -/
def put (t : FileTree) (parent : Location) (name : String) (n : Node) : FileTree :=
  if h : t.isDirectory parent = true ∧ t.isDirectory (parent ++ [name]) = false then
    ⟨written t.entries (parent ++ [name]) n, nodup_written t.nodup,
      isClosed_written t.closed
        (by
          have hp := h.1
          unfold isDirectory get? at hp
          split at hp
          · exact Or.inl (by assumption)
          · obtain ⟨_, _, hentries, -⟩ := List.lookup_eq_some_iff.1 (eq_of_beq hp)
            rw [hentries]
            simp)
        (by
          intro hmem
          have hd := h.2
          unfold isDirectory get? at hd
          rw [if_neg (by simp), lookup_eq_some_of_mem t.nodup hmem] at hd
          simp at hd)⟩
  else t

/-- The entries that are not at or below a location. -/
def outside (entries : List (Location × Node)) (l : Location) : List (Location × Node) :=
  entries.filter fun e => !l.isPrefixOf e.1

/-- The entries that are not below a location. -/
def notBelow (entries : List (Location × Node)) (l : Location) : List (Location × Node) :=
  entries.filter fun e => e.1 == l || !l.isPrefixOf e.1

theorem isClosed_outside {entries : List (Location × Node)} {l : Location} (h : IsClosed entries) :
    IsClosed (outside entries l) := by
  intro e he
  obtain ⟨hmem, hout⟩ := List.mem_filter.1 he
  obtain ⟨q, m, hqm, hq⟩ := h e hmem
  refine ⟨q, m, hqm, hq.imp id fun hq => List.mem_filter.2 ⟨hq, ?_⟩⟩
  simp only [Bool.not_eq_true', ← Bool.not_eq_true, List.isPrefixOf_iff_prefix] at hout ⊢
  intro hpre
  exact hout (hqm ▸ hpre.trans (List.prefix_append q [m]))

theorem isClosed_notBelow {entries : List (Location × Node)} {l : Location}
    (h : IsClosed entries) : IsClosed (notBelow entries l) := by
  intro e he
  obtain ⟨hmem, hout⟩ := List.mem_filter.1 he
  obtain ⟨q, m, hqm, hq⟩ := h e hmem
  refine ⟨q, m, hqm, hq.imp id fun hq => List.mem_filter.2 ⟨hq, ?_⟩⟩
  simp only [Bool.or_eq_true, beq_iff_eq, Bool.not_eq_true', ← Bool.not_eq_true,
    List.isPrefixOf_iff_prefix] at hout ⊢
  right
  intro hpre
  rcases hout with heq | hnot
  · have := hpre.length_le
    rw [← heq, hqm, List.length_append, List.length_singleton] at this
    omega
  · exact hnot (hqm ▸ hpre.trans (List.prefix_append q [m]))

/-- The tree without a location and all that is below it. -/
def prune (t : FileTree) (l : Location) : FileTree :=
  ⟨outside t.entries l, nodup_filter t.nodup, isClosed_outside t.closed⟩

/-- The tree without all that is below a location. -/
def clear (t : FileTree) (l : Location) : FileTree :=
  ⟨notBelow t.entries l, nodup_filter t.nodup, isClosed_notBelow t.closed⟩

/-- The names directly in a directory. -/
def names (t : FileTree) (l : Location) : List String :=
  t.entries.filterMap fun e =>
    match e.1.getLast? with
    | some name => if e.1.dropLast = l then some name else none
    | none => none

end FileTree

end LicenseDepot
