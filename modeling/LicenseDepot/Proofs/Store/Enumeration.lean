import LicenseDepot.Proofs.Store.Truncation
import LicenseDepot.Proofs.Store.Writing
import LicenseDepot.Proofs.Watched
import Mathlib.Data.Set.List

/-!
# Going through a store and looking licences up

A store can be gone through, which lists a directory and reads the files with the right names, and
it can be asked for one licence, which computes the name of its file. Both come to the same
licences, whatever there is in the directory and whatever the directory is: a name is listed if and
only if it leads to something, and the names that are read are those of some identifier. Main
statement: `licenses_eq_retrieved`.
-/

namespace LicenseDepot

/-- A licence that is retrieved is the one that is read from the file of its identifier. -/
theorem Disk.retrieve_eq_ok_some_iff {d : Disk} {directory : Path} {id : LicenseId} {l : License} :
    d.retrieve (.file directory true) (some id) = .ok (some l) ↔
      d.licenseAt (directory.child id.fileName) = .ok l := by
  have hfile : (Reference.file directory true).fileOf (some id)
      = .ok (directory.child id.fileName) := rfl
  constructor
  · intro h
    simp only [Disk.retrieve, hfile] at h
    split at h
    · cases h
    · cases h
    · split at h
      · cases h
      · rename_i hlicense
        cases h
        exact hlicense
  · intro h
    obtain ⟨data, hread, -⟩ := Store.licenseAt_eq_ok_iff.1 h
    simp only [Disk.retrieve, hfile, Disk.holds_of_read hread, h]

/-- A licence file that can be read is listed in its directory. -/
theorem Disk.exists_list_of_licenseAt {d : Disk} {directory : Path} {id : LicenseId} {l : License}
    (h : d.licenseAt (directory.child id.fileName) = .ok l) :
    ∃ names, d.list directory = .ok names ∧ id.fileName ∈ names := by
  obtain ⟨data, hread, -⟩ := Store.licenseAt_eq_ok_iff.1 h
  obtain ⟨place, hlocate⟩ := Disk.read_eq_ok_iff.1 hread
  refine Disk.exists_list_of_locate_child ?_ (LicenseId.fileName_ne_up id) hlocate
  rw [LicenseId.byteLength_fileName]
  decide

/-- Names of licence files in increasing order are those of identifiers in increasing order. -/
theorem LicenseId.exists_of_fileNames {names : List String} (hsorted : names.Pairwise (· < ·)) :
    ∃ ids : List LicenseId, names.filter isFileName = ids.map fileName ∧
      ids.Pairwise (·.value < ·.value) := by
  obtain ⟨ids, hids⟩ : names.filter isFileName ∈ Set.range (List.map fileName) := by
    rw [Set.range_list_map]
    intro name hname
    obtain ⟨id, rfl⟩ := isFileName_iff.1 (List.mem_filter.1 hname).2
    exact ⟨id, rfl⟩
  refine ⟨ids, hids.symm, ?_⟩
  have hnames := hsorted.filter isFileName
  rw [← hids, List.pairwise_map] at hnames
  exact hnames.imp fileName_lt_iff.1

namespace Store

open Machine

variable {w : Machine} {log : ReadLog} {directory : Path}

/-- Watched, beginning to go through a store lists its licence files and reads none of them. -/
theorem watch_iterate (h : w.disk.list directory ≠ .error .nul) :
    watch (iterate directory) log w
      = ((.ok (.ofFiles (filesAmong directory (namesOf (w.disk.list directory)))), log),
        reporting w (listNotices directory (w.disk.list directory))) := by
  have hlog : (⟨log.paths ++ []⟩ : ReadLog) = log := by rw [List.append_nil]
  refine watch_of_act ((act_iterate (s := (log, w)) h).trans ?_)
  exact congrArg (fun log => (_, log, _)) hlog

/-- Watched, going through a store reads its licence files and no other ones. -/
theorem watch_licenses {files : List Path}
    (hfiles : filesAmong directory (namesOf (w.disk.list directory)) = files)
    (h : w.disk.list directory ≠ .error .nul) :
    watch (licenses (.file directory true)) log w
      = ((.ok (readable w.disk files), ⟨log.paths ++ files⟩),
        reporting w (listNotices directory (w.disk.list directory) ++ warnings w.disk files)) :=
  watch_of_act (act_licenses (s := (log, w)) hfiles h)

/-! What is found and what is looked up. -/

/-- Whether a licence is what a store gives for an identifier. -/
def Retrieves (w : Machine) (directory : Path) (id : LicenseId) (l : License) : Prop :=
  (run (retrieve (m := StateM Machine) (.file directory true) (some id)) w).1 = .ok (some l)

theorem retrieves_iff {id : LicenseId} {l : License} :
    Retrieves w directory id l ↔ w.disk.licenseAt (directory.child id.fileName) = .ok l := by
  rw [Retrieves, (run_retrieve _ _ w).1, Disk.retrieve_eq_ok_some_iff]

/-- The values of the parts of a list that have one belong to these parts, one by one. -/
theorem forall₂_filterMap {α β : Type} (f : α → Option β) (as : List α) :
    List.Forall₂ (fun a b => f a = some b) (as.filter fun a => (f a).isSome) (as.filterMap f) := by
  induction as with
  | nil => exact .nil
  | cons a as ih =>
    cases hfa : f a with
    | none =>
      rw [List.filterMap_cons_none hfa, List.filter_cons_of_neg (by simp [hfa])]
      exact ih
    | some b =>
      rw [List.filterMap_cons_some hfa, List.filter_cons_of_pos (by simp [hfa])]
      exact .cons hfa ih

/-- The licences in the files of a directory with the names of licence files are those that are
retrieved, if every file from which a licence is retrieved has one of these names. -/
theorem exists_ids {names : List String} (hsorted : names.Pairwise (· < ·))
    (hlisted : ∀ id l, Retrieves w directory id l → id.fileName ∈ names) :
    ∃ ids : List LicenseId, ids.Pairwise (·.value < ·.value) ∧
      (∀ id, id ∈ ids ↔ ∃ l, Retrieves w directory id l) ∧
      List.Forall₂ (Retrieves w directory) ids (readable w.disk (filesAmong directory names)) := by
  obtain ⟨all, hall, hincreasing⟩ := LicenseId.exists_of_fileNames hsorted
  have hread : ∀ id l, Retrieves w directory id l ↔
      (w.disk.licenseAt (directory.child id.fileName)).toOption = some l := by
    intro id l
    rw [retrieves_iff, toOption_eq_some_iff]
  have hfound : readable w.disk (filesAmong directory names)
      = all.filterMap fun id => (w.disk.licenseAt (directory.child id.fileName)).toOption := by
    rw [readable, filesAmong, hall, List.map_map, List.filterMap_map]
    rfl
  refine ⟨all.filter fun id => (w.disk.licenseAt (directory.child id.fileName)).toOption.isSome,
    hincreasing.filter _, fun id => ?_, ?_⟩
  · rw [List.mem_filter, Option.isSome_iff_exists]
    constructor
    · rintro ⟨-, l, hl⟩
      exact ⟨l, (hread id l).2 hl⟩
    · rintro ⟨l, hl⟩
      refine ⟨?_, l, (hread id l).1 hl⟩
      have hname : id.fileName ∈ all.map LicenseId.fileName := by
        rw [← hall, List.mem_filter]
        exact ⟨hlisted id l hl, LicenseId.isFileName_fileName id⟩
      obtain ⟨id', hid', heq⟩ := List.mem_map.1 hname
      rw [← LicenseId.fileName_inj heq]
      exact hid'
  · rw [hfound]
    exact (forall₂_filterMap _ all).imp fun id l => (hread id l).2

/-- The warnings about the files of a directory with the names of licence files are about those
from which no licence is retrieved. -/
theorem exists_skipped {names : List String} (hsorted : names.Pairwise (· < ·))
    {ids : List LicenseId} (hids : ∀ id, id ∈ ids ↔ ∃ l, Retrieves w directory id l) :
    ∃ skipped : List String, skipped.Pairwise (· < ·) ∧
      (∀ name, name ∈ skipped ↔
        name ∈ names ∧ LicenseId.isFileName name = true ∧ ∀ id ∈ ids, name ≠ id.fileName) ∧
      warnings w.disk (filesAmong directory names)
        = skipped.map fun name => skipNotice (directory.child name) := by
  refine ⟨(names.filter LicenseId.isFileName).filter fun name =>
      (w.disk.licenseAt (directory.child name)).toOption.isNone,
    (hsorted.filter _).filter _, fun name => ?_, ?_⟩
  · rw [List.mem_filter, List.mem_filter, and_assoc]
    refine and_congr_right fun _ => and_congr_right fun hname => ?_
    obtain ⟨id, rfl⟩ := LicenseId.isFileName_iff.1 hname
    rw [Option.isNone_iff_eq_none, Option.eq_none_iff_forall_ne_some]
    constructor
    · rintro hnone id' hid' heq
      obtain rfl := LicenseId.fileName_inj heq
      obtain ⟨l, hl⟩ := (hids id).1 hid'
      exact hnone l (toOption_eq_some_iff.2 (retrieves_iff.1 hl))
    · intro hskipped l hl
      exact hskipped id ((hids id).2 ⟨l, retrieves_iff.2 (toOption_eq_some_iff.1 hl)⟩) rfl
  · rw [warnings, filesAmong, List.filter_map, List.map_map]
    rfl

theorem exists_of_mem_of_forall₂ {α β : Type} {R : α → β → Prop} {as : List α} {bs : List β}
    (h : List.Forall₂ R as bs) {a : α} (ha : a ∈ as) : ∃ b ∈ bs, R a b := by
  induction h with
  | nil => simp at ha
  | @cons a' b as bs hab _ ih =>
    rcases List.mem_cons.1 ha with rfl | ha
    · exact ⟨b, List.mem_cons_self, hab⟩
    · obtain ⟨b', hb', hab'⟩ := ih ha
      exact ⟨b', List.mem_cons_of_mem b hb', hab'⟩

/-- Going through a store gives the licences that are retrieved from it, all of them, in the order
of their identifiers and each of them once. It reads the files of the directory that are named as
licence files, once each, and no other ones. There is one warning for each of these files that does
not give a licence, and one if the directory is there and cannot be listed. -/
theorem licenses_eq_retrieved (h : directory.hasNul = false) (w : Machine) :
    ∃ (ids : List LicenseId) (found : List License) (reads : List Path) (notices : List Notice),
      run (licenses (m := StateM Machine) (.file directory true)) w
        = (.ok found, reporting w notices) ∧
      watch (licenses (.file directory true)) ⟨[]⟩ w
        = ((.ok found, ⟨reads⟩), reporting w notices) ∧
      ids.Pairwise (·.value < ·.value) ∧
      (∀ id, id ∈ ids ↔ ∃ l, Retrieves w directory id l) ∧
      List.Forall₂ (Retrieves w directory) ids found ∧
      match w.disk.list directory with
      | .ok names =>
        reads = filesAmong directory names ∧
        ∃ skipped : List String, skipped.Pairwise (· < ·) ∧
          (∀ name, name ∈ skipped ↔
            name ∈ names ∧ LicenseId.isFileName name = true ∧ ∀ id ∈ ids, name ≠ id.fileName) ∧
          notices = skipped.map fun name => skipNotice (directory.child name)
      | .error (.refused .missing _) => reads = [] ∧ notices = []
      | .error _ => reads = [] ∧ ∃ message, notices = [.record .store .warning message] := by
  have hnul := Disk.list_ne_nul (d := w.disk) h
  have hrun := run_licenses_of_ne_nul rfl hnul
  have hwatch : watch _ ⟨[]⟩ w = _ := watch_licenses rfl hnul
  have hlisted : ∀ id l, Retrieves w directory id l →
      id.fileName ∈ namesOf (w.disk.list directory) := by
    intro id l hl
    obtain ⟨names, hnames, hmem⟩ := Disk.exists_list_of_licenseAt (retrieves_iff.1 hl)
    rw [hnames]
    exact hmem
  cases hlist : w.disk.list directory with
  | ok names =>
    rw [hlist] at hrun hwatch hlisted
    have hsorted := Disk.pairwise_of_list hlist
    obtain ⟨ids, hincreasing, hids, hfound⟩ := exists_ids hsorted hlisted
    obtain ⟨skipped, hskipped⟩ := exists_skipped hsorted hids
    exact ⟨ids, _, _, _, hrun, hwatch, hincreasing, hids, hfound, rfl, skipped, hskipped⟩
  | error e =>
    rw [hlist] at hrun hwatch hlisted
    obtain ⟨ids, hincreasing, hids, hfound⟩ := exists_ids .nil hlisted
    refine ⟨ids, _, _, _, hrun, hwatch, hincreasing, hids, hfound, ?_⟩
    rw [hlist] at hnul
    cases e with
    | nul => exact absurd rfl hnul
    | refused fault p =>
      cases fault with
      | missing => exact ⟨rfl, rfl⟩
      | _ => exact ⟨rfl, _, rfl⟩
    | _ => exact ⟨rfl, _, rfl⟩

/-- A machine whose root directory holds the document of a licence under its name. -/
def shelf (l : License) (document : List Char) : Machine :=
  ⟨.ofFile l.id.fileName (Text.Utf8.encode document), [], {}⟩

theorem retrieves_shelf {t : Terms} {s : List Char} (h : LicenseDocument.write t = .ok s) :
    Retrieves (shelf (.plain t) s) ⟨.root, []⟩ t.id
      (.plain (LicenseDocument.termsAsRead t)) := by
  have hread : (shelf (.plain t) s).disk.read (.child ⟨.root, []⟩ t.id.fileName)
      = .ok (Text.Utf8.encode s) :=
    (Disk.admits_fileName (Disk.locate_root _) Path.hasRoom_root _).read_file (Disk.get?_ofFile _ _)
  rw [retrieves_iff, licenseAt_of_read hread]
  exact License.ofFileBytes_eq_ok_iff.2
    ⟨_, Content.ofBytes_encode_write h, Content.toLicense_write h⟩

theorem licenses_eq_retrieved_shelf :
    (⟨.root, []⟩ : Path).hasNul = false ∧
    ∃ (w w' : Machine) (found : List License),
      run (licenses (m := StateM Machine) (.file ⟨.root, []⟩ true)) w = (.ok found, w') ∧
      ∃ l ∈ found, Retrieves w ⟨.root, []⟩ Content.awkwardTerms.id l := by
  obtain ⟨s, hs⟩ := Content.document_awkwardTerms
  have hretrieves := retrieves_shelf hs
  have hnul : (⟨.root, []⟩ : Path).hasNul = false := by decide
  obtain ⟨ids, found, _, notices, hrun, -, -, hids, hfound, -⟩ :=
    licenses_eq_retrieved hnul (shelf (.plain Content.awkwardTerms) s)
  have hid := (hids _).2 ⟨_, hretrieves⟩
  exact ⟨hnul, _, _, found, hrun, exists_of_mem_of_forall₂ hfound hid⟩

end Store

end LicenseDepot
