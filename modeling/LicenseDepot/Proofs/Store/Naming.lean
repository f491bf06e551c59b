import LicenseDepot.Proofs.Files.Removal
import LicenseDepot.Proofs.LicenseId.Pattern
import LicenseDepot.Proofs.Store.Enumeration
import Mathlib.Data.List.TFAE

/-!
# Names that are discovered and identifiers that are addressed

A store finds licences by the names in its directory and writes them to paths that it computes from
identifiers. The two meet: the filter lets through the names that some identifier is addressed by,
each of these for one identifier that can be read off from it, and what is found in a directory is
in the order of the identifiers. Main statement: `discovered_iff_addressed`.
-/

namespace LicenseDepot

/-- A path consists of its parent and its last name. -/
theorem Path.eq_child_iff {p directory : Path} {name : String} :
    p = directory.child name ↔ directory = p.parent ∧ p.parts.getLast? = some name := by
  constructor
  · rintro rfl
    simp [parent, child]
  · rintro ⟨rfl, hlast⟩
    obtain ⟨front, hfront⟩ := List.getLast?_eq_some_iff.1 hlast
    rw [child, parent, hfront, List.dropLast_concat, ← hfront]

namespace LicenseId

/-- The name of a licence file is a path of its own, with nothing but the name in it. -/
theorem ofText_fileName (id : LicenseId) : Path.ofText id.fileName = ⟨.here, [id.fileName]⟩ := by
  refine Path.ofText_of_notMem id.slash_notMem_fileName ?_
  rw [toList_fileName]
  have hlength : 1 < (id.chars ++ fileExtension).length := by
    rw [List.length_append, length_chars]
    omega
  generalize id.chars ++ fileExtension = s at hlength
  match s, hlength with
  | _ :: _ :: _, _ => simp [Path.leads]

end LicenseId

/-- The path of a licence consists of the directory of the store, which has to have room for many
licences, and the name of the file. -/
theorem Reference.licensePath_eq_ok_iff {r : Reference} {id : LicenseId} {p : Path} :
    r.licensePath id = .ok p ↔
      r.isMulti = true ∧ r.path = .ok p.parent ∧ p.parts.getLast? = some id.fileName := by
  cases r with
  | opaqueKind name => simp [licensePath, path, Except.bind]
  | file directory multi =>
    cases multi with
    | false => simp [licensePath, path, isMulti, Except.bind]
    | true =>
      simp only [licensePath, path, isMulti, Except.bind, if_true, true_and, Except.ok.injEq]
      rw [eq_comm, Path.eq_child_iff]

namespace Store

open Machine LicenseId

/-- The licence files that are found in a directory are those that identifiers are addressed by,
in the order of the identifiers. -/
theorem exists_run_licenseFiles {directory : Path} (h : directory.hasNul = false) (w : Machine) :
    ∃ ids : List LicenseId,
      (run (licenseFiles (m := StateM Machine) directory) w).1
        = .ok (ids.map fun id => directory.child id.fileName) ∧
      ids.Pairwise (·.value < ·.value) ∧
      ∀ id, id ∈ ids ↔ id.fileName ∈ namesOf (w.disk.list directory) := by
  have hsorted : (namesOf (w.disk.list directory)).Pairwise (· < ·) := by
    cases hlist : w.disk.list directory with
    | ok names => exact Disk.pairwise_of_list hlist
    | error e => exact .nil
  obtain ⟨ids, hids, hincreasing⟩ := LicenseId.exists_of_fileNames hsorted
  refine ⟨ids, ?_, hincreasing, fun id => ?_⟩
  · rw [run_licenseFiles (Disk.list_ne_nul h), filesAmong, hids, List.map_map]
    rfl
  · rw [← List.mem_map_of_injective fun _ _ => fileName_inj, ← hids, List.mem_filter]
    exact and_iff_left (isFileName_fileName id)

/-- The names that the filter of a store lets through are those that some identifier is addressed
by, and it is one identifier, which is read back from the name without its extension. The path of a
licence is the directory of the store with the name in it, a plain name that does not lead back, so
that distinct identifiers have distinct paths. Names compare as the identifiers do, and the files
that are found in a directory are in that order. -/
theorem discovered_iff_addressed :
    (∀ (directory : Path) (name : String), List.TFAE [
      name.toList ∈ filePattern.matches',
      isFileName name = true,
      ∃ id : LicenseId, name = id.toText ++ ".license",
      ∃! id : LicenseId, name = id.toText ++ ".license",
      ∃ id p, (Reference.file directory true).licensePath id = .ok p ∧
        p.parts.getLast? = some name]) ∧
    (∀ (id : LicenseId) (stem : String), stem ++ ".license" = id.toText ++ ".license" →
      ofString stem = .ok id) ∧
    (∀ (r : Reference) (id : LicenseId) (p : Path), r.licensePath id = .ok p ↔
      r.isMulti = true ∧ r.path = .ok p.parent ∧
        p.parts.getLast? = some (id.toText ++ ".license")) ∧
    (∀ id : LicenseId, Path.ofText (id.toText ++ ".license") = ⟨.here, [id.toText ++ ".license"]⟩ ∧
      id.toText ++ ".license" ≠ "..") ∧
    (∀ (r : Reference) (id id' : LicenseId) (p : Path),
      r.licensePath id = .ok p → r.licensePath id' = .ok p → id = id') ∧
    (∀ id id' : LicenseId,
      id.toText ++ ".license" < id'.toText ++ ".license" ↔ id.value < id'.value) ∧
    ∀ (directory : Path) (w : Machine), directory.hasNul = false →
      ∃ ids : List LicenseId,
        (run (licenseFiles (m := StateM Machine) directory) w).1
          = .ok (ids.map fun id => directory.child (id.toText ++ ".license")) ∧
        ids.Pairwise (·.value < ·.value) ∧
        ∀ id : LicenseId,
          id ∈ ids ↔ id.toText ++ ".license" ∈ namesOf (w.disk.list directory) := by
  simp only [← fileName_eq_append]
  refine ⟨fun directory name => ?_, ?_, fun r id p => Reference.licensePath_eq_ok_iff,
    fun id => ⟨ofText_fileName id, fileName_ne_up id⟩, ?_, fun id id' => fileName_lt_iff,
    fun directory w h => exists_run_licenseFiles h w⟩
  · tfae_have 1 ↔ 2 := isFileName_iff_mem_filePattern.symm
    tfae_have 2 ↔ 3 := isFileName_iff
    tfae_have 4 → 3 := ExistsUnique.exists
    tfae_have 3 → 4
    | ⟨id, hid⟩ => ⟨id, hid, fun id' hid' => fileName_inj (hid'.symm.trans hid)⟩
    tfae_have 3 ↔ 5 := by
      refine exists_congr fun id => ?_
      constructor
      · rintro rfl
        exact ⟨directory.child id.fileName, rfl, (Path.eq_child_iff.1 rfl).2⟩
      · rintro ⟨p, hp, hname⟩
        obtain ⟨-, -, hlast⟩ := Reference.licensePath_eq_ok_iff.1 hp
        exact Option.some.inj (hname.symm.trans hlast)
    tfae_finish
  · intro id stem hstem
    rw [fileName_eq_append] at hstem
    rw [(String.append_left_inj ".license").1 hstem, ofString_toText]
  · intro r id id' p hp hp'
    have hlast := (Reference.licensePath_eq_ok_iff.1 hp).2.2
    have hlast' := (Reference.licensePath_eq_ok_iff.1 hp').2.2
    exact fileName_inj (Option.some.inj (hlast.symm.trans hlast'))

/-- The licence on a shelf is found under its own identifier, which its name spells. -/
theorem discovered_iff_addressed_shelf :
    (⟨.root, []⟩ : Path).hasNul = false ∧
    ofString Content.awkwardTerms.id.toText = .ok Content.awkwardTerms.id ∧
    ∃ (w : Machine) (ids : List LicenseId),
      (run (licenseFiles (m := StateM Machine) ⟨.root, []⟩) w).1
        = .ok (ids.map fun id => Path.child ⟨.root, []⟩ (id.toText ++ ".license")) ∧
      Content.awkwardTerms.id ∈ ids := by
  have hnul : (⟨.root, []⟩ : Path).hasNul = false := by decide
  obtain ⟨s, hs⟩ := Content.document_awkwardTerms
  have hretrieves : Retrieves (shelf (.plain Content.awkwardTerms) s) ⟨.root, []⟩ _ _ :=
    retrieves_shelf hs
  obtain ⟨names, hlist, hmem⟩ := Disk.exists_list_of_licenseAt (retrieves_iff.1 hretrieves)
  obtain ⟨-, hspelled, -, -, -, -, hfound⟩ := discovered_iff_addressed
  obtain ⟨ids, hrun, -, hids⟩ := hfound _ (shelf (.plain Content.awkwardTerms) s) hnul
  refine ⟨hnul, hspelled _ _ rfl, _, ids, hrun, (hids _).2 ?_⟩
  rw [hlist, ← fileName_eq_append]
  exact hmem

end Store

end LicenseDepot
