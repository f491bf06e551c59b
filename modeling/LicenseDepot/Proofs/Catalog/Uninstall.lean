import LicenseDepot.Proofs.Catalog.Effect
import LicenseDepot.Proofs.Store.Removal

/-!
# Removing one licence

Whoever removes a licence is told whether it was there before. Whether it is gone after that depends
on what its path names: a file or a link is removed, whatever is in it or behind it, but a directory
stays. That is worth a warning, and still the licence is said to have been removed. Main statement:
`uninstall_truthful`.
-/

namespace LicenseDepot.Catalog

open Machine

variable {w w' v : Machine} {directory : Path} {id : LicenseId} {existed : Bool}

/-- The machine after a licence has been removed, or was not there, and that has been noted. -/
def afterUninstall (w : Machine) (id : LicenseId) (existed : Bool) : Machine :=
  if existed then w.noting (.record .catalog .info s!"[UNINSTALL] Licencia {id}") else w

theorem run_uninstall (hholds : w.disk.holds (directory.child id.fileName) = .ok existed) :
    run (uninstall (m := StateM Machine) (.file directory true) id) w
      = match run (Store.removeFile (m := StateM Machine) (directory.child id.fileName)) w with
        | (.ok (), v) => (.ok existed, afterUninstall v id existed)
        | (.error e, v) => (.error e, v) := by
  have hcontains := Store.run_contains directory id w
  rw [hholds] at hcontains
  rw [uninstall, run_bind_ok hcontains]
  change run (Store.removeFile (directory.child id.fileName) >>= fun _ => _) w = _
  rcases hremove : run (Store.removeFile (m := StateM Machine) (directory.child id.fileName)) w
    with ⟨x, v⟩
  cases x with
  | error e => exact run_bind_error hremove
  | ok _ =>
    rw [run_bind_ok hremove]
    cases existed <;> rfl

theorem disk_of_removeFile {p : Path} (h : run (Store.removeFile (m := StateM Machine) p) w
    = (.ok (), v)) : v.disk = (w.disk.unlink p).toOption.getD w.disk := by
  rw [Store.run_removeFile] at h
  cases hunlink : w.disk.unlink p with
  | ok d =>
    rw [hunlink] at h
    cases h
    rfl
  | error e =>
    rw [hunlink] at h
    split at h
    · contradiction
    · cases h
    · cases h
      rfl
    · cases h
      rfl

/-- Whoever removes a licence is told whether it was there. -/
theorem holds_of_uninstall
    (h : run (uninstall (m := StateM Machine) (.file directory true) id) w = (.ok existed, w')) :
    w.disk.holds (directory.child id.fileName) = .ok existed ∧
      w'.disk = (w.disk.unlink (directory.child id.fileName)).toOption.getD w.disk := by
  cases hholds : w.disk.holds (directory.child id.fileName) with
  | error e =>
    have hcontains := Store.run_contains directory id w
    rw [hholds] at hcontains
    rw [uninstall, run_bind_error hcontains] at h
    cases h
  | ok there =>
    rw [run_uninstall hholds] at h
    rcases hremove : run (Store.removeFile (m := StateM Machine) (directory.child id.fileName)) w
      with ⟨x, v⟩
    rw [hremove] at h
    cases x with
    | error e => cases h
    | ok _ =>
      cases h
      rw [← disk_of_removeFile hremove]
      cases existed <;> exact ⟨rfl, rfl⟩

/-- Whoever removes a licence from a store with room for many is told whether it was there, and
nothing but what its path names is removed. After that it is not there and is not found, unless its
path names a directory: this stays, with a warning and a note that the licence has been removed. -/
theorem uninstall_truthful
    (h : run (uninstall (m := StateM Machine) (.file directory true) id) w = (.ok existed, w')) :
    (run (Store.contains (m := StateM Machine) (.file directory true) id) w).1 = .ok existed ∧
    (w'.disk = w.disk ∨
      ∃ l n, RemovesEntry w.disk w'.disk (directory.child id.fileName) l n) ∧
    (Store.Absent w' directory id ↔
      ∀ l, w.disk.locate .itself (directory.child id.fileName) ≠ .ok (.found l .directory)) ∧
    ∀ l, w.disk.locate .itself (directory.child id.fileName) = .ok (.found l .directory) →
      existed = true ∧ w' = afterUninstall (w.noting (.record .store .warning
        s!"No se pudo borrar [{directory.child id.fileName}]: {AccessFault.message
          (.refused .isDirectory (directory.child id.fileName))}")) id true := by
  have hproper := LicenseId.fileName_ne_up id
  obtain ⟨hholds, hdisk⟩ := holds_of_uninstall h
  refine ⟨?_, ?_, ⟨fun habsent l hl => ?_, fun hfree => ?_⟩, fun l hl => ?_⟩
  · rw [Store.run_contains, hholds]
    rfl
  · have hchanges := (Call.changes_uninstall (.file directory true) id w).2 existed
    rw [h] at hchanges
    refine (hchanges rfl).imp_right ?_
    rintro ⟨q, l, n, ⟨⟩, hremoves⟩
    exact ⟨l, n, hremoves⟩
  · -- A directory is not unlinked, so the disk is what it was and what is asked for is there.
    rw [Disk.unlink_child_directory hproper hl] at hdisk
    change w'.disk = w.disk at hdisk
    rw [Store.absent_iff, hdisk, Disk.holds_of_directory hl] at habsent
    cases habsent
  · rw [Store.absent_iff, hdisk]
    exact Disk.holds_after_unlink_child hproper hholds hfree
  · obtain rfl : true = existed :=
      Except.ok.inj ((Disk.holds_of_directory hl).symm.trans hholds)
    rw [run_uninstall hholds, Store.run_removeFile, Disk.unlink_child_directory hproper hl] at h
    cases h
    exact ⟨rfl, rfl⟩

/-- A machine whose root directory holds an empty directory, and a link to it in the place of a
licence. -/
def linkedLicence : Machine where
  disk :=
    { tree := (FileTree.empty.put [] "kept" .directory).put [] (LicenseId.fileName ⟨0⟩)
        (.link "/kept")
      here := [] }
  journal := []
  readings := {}

/-- The link is removed, and the directory that it leads to stays. -/
theorem uninstall_truthful_linkedLicence :
    ∃ w', run (uninstall (m := StateM Machine) (.file ⟨.root, []⟩ true) ⟨0⟩) linkedLicence
        = (.ok true, w') ∧
      Store.Absent w' ⟨.root, []⟩ ⟨0⟩ ∧ w'.disk.tree.get? ["kept"] = some .directory := by
  have hkept : linkedLicence.disk.tree.get? ["kept"] = some .directory := by decide
  have hlink : linkedLicence.disk.tree.get? [LicenseId.fileName ⟨0⟩] = some (.link "/kept") := by
    decide
  have hname : Path.byteLength (LicenseId.fileName ⟨0⟩) ≤ nameLimit := by decide
  have hcheck := (Disk.admits_fileName linkedLicence.disk.locate_root Path.hasRoom_root
    ⟨0⟩).checkPath_child
  have hsteps : Step.ofPath (.child ⟨.root, []⟩ (LicenseId.fileName ⟨0⟩))
      = [.down (LicenseId.fileName ⟨0⟩)] := by decide
  have htarget : Step.ofTarget "/kept" = [.down "kept"] := by decide
  have hslash : ¬ (Purpose.target = .writing ∧ ([] : List Step) = [.slash]) := by decide
  have hnamed : linkedLicence.disk.locate .itself (.child ⟨.root, []⟩ (LicenseId.fileName ⟨0⟩))
      = .ok (.found [LicenseId.fileName ⟨0⟩] (.link "/kept")) := by
    refine Disk.locate_eq_ok_iff.2 ⟨hcheck, ?_⟩
    rw [hsteps]
    exact .itself rfl hname hlink rfl
  have hreached : linkedLicence.disk.locate .target (.child ⟨.root, []⟩ (LicenseId.fileName ⟨0⟩))
      = .ok (.found ["kept"] .directory) := by
    refine Disk.locate_eq_ok_iff.2 ⟨hcheck, ?_⟩
    rw [hsteps]
    refine .follow rfl hname hslash hlink (by decide) ?_
    rw [htarget]
    exact .down rfl (by decide) hslash hkept (fun _ heq => Node.noConfusion heq) (.arrive hkept)
  have hrun := run_uninstall (Disk.holds_eq_true_iff.2
    ⟨_, _, hreached, fun _ => Node.noConfusion⟩)
  rw [Store.run_removeFile, Disk.unlink, if_pos (by decide), hnamed] at hrun
  obtain ⟨-, -, habsent, -⟩ := uninstall_truthful hrun
  refine ⟨_, hrun, habsent.2 fun l hl => ?_, ?_⟩
  · rw [hnamed] at hl
    cases hl
  · decide

/-- A machine whose root directory holds an empty directory in the place of a licence. -/
def blockedLicence (id : LicenseId) : Machine :=
  ⟨⟨FileTree.empty.put [] id.fileName .directory, []⟩, [], {}⟩

theorem locate_blockedLicence (id : LicenseId) :
    (blockedLicence id).disk.locate .itself (.child ⟨.root, []⟩ id.fileName)
      = .ok (.found [id.fileName] .directory) := by
  have hstraight : (blockedLicence id).disk.Straight (.child ⟨.root, []⟩ id.fileName) :=
    .of_parts_eq_singleton rfl (LicenseId.fileName_ne_up id) (LicenseId.nul_notMem_fileName id)
  refine hstraight.locate (Path.hasRoom_root id) (fun part hpart => ?_) ?_
  · rw [List.mem_singleton.1 hpart, LicenseId.byteLength_fileName]
    decide
  · exact (FileTree.get?_put rfl rfl _).trans (if_pos rfl)

/-- A directory in the place of a licence is said to have been removed, and is still there. -/
theorem uninstall_blockedLicence :
    ∃ w', run (uninstall (m := StateM Machine) (.file ⟨.root, []⟩ true) ⟨0⟩) (blockedLicence ⟨0⟩)
        = (.ok true, w') ∧
      (run (Store.contains (m := StateM Machine) (.file ⟨.root, []⟩ true) ⟨0⟩) w').1 = .ok true ∧
      ¬ Store.Absent w' ⟨.root, []⟩ ⟨0⟩ := by
  have hl := locate_blockedLicence ⟨0⟩
  have hholds := Disk.holds_of_directory hl
  have hrun := run_uninstall hholds
  rw [Store.run_removeFile, Disk.unlink_child_directory (LicenseId.fileName_ne_up _) hl] at hrun
  refine ⟨_, hrun, ?_, fun habsent => ?_⟩
  · rw [Store.run_contains]
    change ((blockedLicence ⟨0⟩).disk.holds _).mapError _ = _
    rw [hholds]
    rfl
  · rw [Store.absent_iff] at habsent
    change (blockedLicence ⟨0⟩).disk.holds _ = _ at habsent
    rw [hholds] at habsent
    cases habsent

end LicenseDepot.Catalog
