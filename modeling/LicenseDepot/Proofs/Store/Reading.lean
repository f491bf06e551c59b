import LicenseDepot.Proofs.Content.Reread
import LicenseDepot.Proofs.Files.Access
import LicenseDepot.Proofs.LicenseId.FileName
import LicenseDepot.Proofs.Watched
import LicenseDepot.Store

/-!
# Reading licences from a store

Reading does not change anything but the journal, so what is read is a function of the files:
`Disk.licenseAt` for one file and `Disk.retrieve` for a store. Going through files reads them one by
one, with one warning for each that cannot be read, on a machine as on one that is watched. Main
statements: `run_retrieve` and `act_licenses`.
-/

namespace LicenseDepot

/-- Whether a path leaves room for the name of a licence file. -/
def Path.HasRoom (directory : Path) : Prop :=
  ∀ id : LicenseId, Path.byteLength (directory.child id.fileName).toText < pathLimit

theorem Path.hasRoom_root : Path.HasRoom ⟨.root, []⟩ := by
  intro id
  rw [Disk.byteLength_child_root, LicenseId.byteLength_fileName]
  decide

/-- A slash and the name of a licence file take 45 bytes. -/
theorem Path.hasRoom_iff {directory : Path} (h : directory.parts ≠ []) :
    directory.HasRoom ↔ byteLength directory.toText + 45 < pathLimit := by
  have hlength : ∀ id : LicenseId, byteLength (directory.child id.fileName).toText
      = byteLength directory.toText + 45 := by
    intro id
    rw [byteLength_toText_child h, LicenseId.byteLength_fileName]
  unfold HasRoom
  constructor
  · intro hroom
    rw [← hlength ⟨0⟩]
    exact hroom ⟨0⟩
  · intro hroom id
    rw [hlength]
    exact hroom

/-- Licence files can be asked for in any directory whose path leaves room for their names. -/
theorem Disk.admits_fileName {d : Disk} {directory : Path} {l : Location}
    (h : d.locate .target directory = .ok (.found l .directory)) (hroom : directory.HasRoom)
    (id : LicenseId) : d.Admits directory l id.fileName where
  found := h
  path := hroom id
  characters := LicenseId.nul_notMem_fileName id
  length := by
    rw [LicenseId.byteLength_fileName]
    decide
  proper := LicenseId.fileName_ne_up id

/-- The licence in the file of a path. -/
def Disk.licenseAt (d : Disk) (p : Path) : Except ReadFault License :=
  match d.read p with
  | .error e => .error (.access e)
  | .ok data => License.ofFileBytes data

/-- The file that a licence is looked for in. -/
def Reference.fileOf (r : Reference) : Option LicenseId → Except Failure Path
  | some id => (r.licensePath id).mapError .reference
  | none => (r.path.mapError .reference).bind fun p =>
    if r.isMulti then .error (.manyLicenses p) else .ok p

/-- The licence of a store, if it is there. -/
def Disk.retrieve (d : Disk) (r : Reference) (id : Option LicenseId) :
    Except Failure (Option License) :=
  match r.fileOf id with
  | .error e => .error e
  | .ok p =>
    match d.holds p with
    | .error e => .error (.access e)
    | .ok false => .ok none
    | .ok true =>
      match d.licenseAt p with
      | .error e => .error (.unreadable p e)
      | .ok l => .ok (some l)

/-- Whether there is a file for a licence. -/
def Disk.contains (d : Disk) (r : Reference) (id : LicenseId) : Except Failure Bool :=
  match r.fileOf (some id) with
  | .error e => .error e
  | .ok p => (d.holds p).mapError .access

namespace Store

open Machine

variable {w : Machine} {p directory : Path}

/-- Whatever is read from a file is in its bytes. -/
theorem licenseAt_eq_ok_iff {d : Disk} {l : License} :
    d.licenseAt p = .ok l ↔ ∃ data, d.read p = .ok data ∧ License.ofFileBytes data = .ok l := by
  unfold Disk.licenseAt
  cases d.read p with
  | error e => simp
  | ok data => simp

theorem run_orFail {ε α : Type} (wrap : ε → Failure) (x : Except ε α) (w : Machine) :
    run (orFail (m := StateM Machine) wrap x) w = (x.mapError wrap, w) := by
  cases x with
  | ok a => rfl
  | error e => rfl

section Observed

variable {m : Type → Type} [Monad m] [LawfulMonad m] [Host m] {σ : Type} [Observable σ]
  [Observed m σ]

open Observable Observed

omit [LawfulMonad m] in
theorem act_readFile (p : Path) (s : σ) :
    act (readFile (m := m) p).run s = ((diskOf s).licenseAt p, after s [p] []) := by
  unfold readFile Disk.licenseAt License.ofFileBytes
  rw [ExceptT.run_mk, act_bind, act_read]
  cases (diskOf s).read p with
  | error e => exact act_pure _ _
  | ok data =>
    dsimp only
    cases Content.ofBytes data with
    | error e => exact act_pure _ _
    | ok content => exact act_pure _ _

/-- Reading the licence of a file reads this file and reports nothing. -/
theorem act_readLicense (p : Path) (s : σ) :
    act (readLicense (m := m) p).run s
      = (((diskOf s).licenseAt p).mapError (.unreadable p), after s [p] []) := by
  rw [readLicense, act_adapt, act_readFile]

end Observed

theorem run_readFile (p : Path) (w : Machine) :
    run (readFile (m := StateM Machine) p) w = (w.disk.licenseAt p, w) :=
  (act_readFile (m := StateM Machine) p w).trans (congrArg (Prod.mk _) (reporting_nil w))

theorem run_readLicense (p : Path) (w : Machine) :
    run (readLicense (m := StateM Machine) p) w
      = ((w.disk.licenseAt p).mapError (.unreadable p), w) :=
  (act_readLicense (m := StateM Machine) p w).trans (congrArg (Prod.mk _) (reporting_nil w))

theorem run_holds (p : Path) (w : Machine) :
    run (holds (m := StateM Machine) p) w = ((w.disk.holds p).mapError .access, w) := by
  rw [holds, run_lift_bind]
  exact run_orFail _ _ w

/-- Whether there is a file depends on the files alone, and nothing is changed or reported. -/
theorem run_contains_eq (r : Reference) (id : LicenseId) (w : Machine) :
    run (contains (m := StateM Machine) r id) w = (w.disk.contains r id, w) := by
  have hpath := run_orFail Failure.reference (r.licensePath id) w
  have hfile : r.fileOf (some id) = (r.licensePath id).mapError .reference := rfl
  rw [contains, Disk.contains, hfile]
  cases h : r.licensePath id with
  | error e =>
    rw [h] at hpath
    rw [run_bind_error hpath]
    rfl
  | ok p =>
    rw [h] at hpath
    rw [run_bind_ok hpath]
    exact run_holds p w

theorem run_contains (directory : Path) (id : LicenseId) (w : Machine) :
    run (contains (m := StateM Machine) (.file directory true) id) w
      = ((w.disk.holds (directory.child id.fileName)).mapError .access, w) :=
  run_contains_eq _ id w

theorem run_fileOf (r : Reference) (id : Option LicenseId) (w : Machine) :
    run (fileOf (m := StateM Machine) r id) w = (r.fileOf id, w) := by
  cases id with
  | some id => exact run_orFail _ _ w
  | none =>
    unfold fileOf Reference.fileOf
    have hpath := run_orFail Failure.reference r.path w
    cases h : r.path with
    | error e =>
      rw [h] at hpath
      rw [run_bind_error hpath]
      rfl
    | ok p =>
      rw [h] at hpath
      rw [run_bind_ok hpath]
      cases r.isMulti with
      | true => rfl
      | false => rfl

/-- What is retrieved depends on the files alone, and these stay as they are. -/
theorem run_retrieve (r : Reference) (id : Option LicenseId) (w : Machine) :
    (run (retrieve (m := StateM Machine) r id) w).1 = w.disk.retrieve r id ∧
      (run (retrieve (m := StateM Machine) r id) w).2.disk = w.disk := by
  apply run_measured (P := fun x d => x = w.disk.retrieve r id ∧ d = w.disk)
  intro v hv
  rw [← hv]
  cases hfile : r.fileOf id with
  | error e =>
    rw [run_bind_error (hfile ▸ run_fileOf r id v)]
    simp only [Disk.retrieve, hfile, and_self]
  | ok p =>
    have hholds := run_holds p v
    have hread := run_readLicense p v
    rw [run_bind_ok (hfile ▸ run_fileOf r id v)]
    cases hthere : v.disk.holds p with
    | error e =>
      rw [hthere] at hholds
      rw [run_bind_error hholds]
      simp only [Disk.retrieve, hfile, hthere, and_self]
    | ok there =>
      rw [hthere] at hholds
      rw [run_bind_ok hholds]
      cases there with
      | false =>
        simp only [Disk.retrieve, hfile, hthere]
        exact ⟨rfl, rfl⟩
      | true =>
        cases hlicense : v.disk.licenseAt p with
        | error e =>
          rw [hlicense] at hread
          rw [if_pos rfl, run_bind_error hread]
          simp only [Disk.retrieve, hfile, hthere, hlicense, and_self]
        | ok l =>
          rw [hlicense] at hread
          rw [if_pos rfl, run_bind_ok hread]
          simp only [Disk.retrieve, hfile, hthere, hlicense, run_pure, and_self]

/-! Going through files. -/

/-- The warning about a file that cannot be read. -/
def skipNotice (p : Path) : Notice :=
  .record .store .warning (LicenseIterator.skipMessage p)

/-- The licences in those of some files that can be read. -/
def readable (d : Disk) (files : List Path) : List License :=
  files.filterMap fun p => (d.licenseAt p).toOption

/-- The warnings about those of some files that cannot be read. -/
def warnings (d : Disk) (files : List Path) : List Notice :=
  (files.filter fun p => (d.licenseAt p).toOption.isNone).map skipNotice

theorem readable_cons_ok {d : Disk} {l : License} (h : d.licenseAt p = .ok l)
    (rest : List Path) : readable d (p :: rest) = l :: readable d rest := by
  rw [readable, List.filterMap_cons_some]
  · rfl
  · rw [h]
    rfl

theorem warnings_cons_ok {d : Disk} {l : License} (h : d.licenseAt p = .ok l)
    (rest : List Path) : warnings d (p :: rest) = warnings d rest := by
  rw [warnings, List.filter_cons_of_neg]
  · rfl
  · rw [h]
    exact Bool.false_ne_true

theorem readable_cons_error {d : Disk} {e : ReadFault} (h : d.licenseAt p = .error e)
    (rest : List Path) : readable d (p :: rest) = readable d rest := by
  rw [readable, List.filterMap_cons_none]
  · rfl
  · rw [h]
    rfl

theorem warnings_cons_error {d : Disk} {e : ReadFault} (h : d.licenseAt p = .error e)
    (rest : List Path) : warnings d (p :: rest) = skipNotice p :: warnings d rest := by
  rw [warnings, List.filter_cons_of_pos]
  · rfl
  · rw [h]
    rfl

/-- Where every file holds a licence, these are what can be read, and there is nothing to warn
of. -/
theorem readable_map {α : Type} {d : Disk} {file : α → Path} {f : α → License} {xs : List α}
    (h : ∀ x ∈ xs, d.licenseAt (file x) = .ok (f x)) :
    readable d (xs.map file) = xs.map f ∧ warnings d (xs.map file) = [] := by
  induction xs with
  | nil => exact ⟨rfl, rfl⟩
  | cons x xs ih =>
    have hx := h x List.mem_cons_self
    obtain ⟨hreadable, hwarnings⟩ := ih fun y hy => h y (List.mem_cons_of_mem x hy)
    rw [List.map_cons, List.map_cons, readable_cons_ok hx, warnings_cons_ok hx, hreadable]
    exact ⟨rfl, hwarnings⟩

/-- An iterator passes over a file that cannot be read, with one warning. -/
theorem findNext_cons_of_error {e : ReadFault} (h : w.disk.licenseAt p = .error e)
    (rest : List Path) :
    LicenseIterator.findNext (readLicense (m := StateM Machine)) (p :: rest) w
      = LicenseIterator.findNext (readLicense (m := StateM Machine)) rest
        (w.noting (skipNotice p)) := by
  have hrun : (readLicense (m := StateM Machine) p).run w = _ := run_readLicense p w
  rw [h] at hrun
  rw [LicenseIterator.findNext, bind_apply hrun]
  rfl

/-- The licence files among some names in a directory. -/
def filesAmong (directory : Path) (names : List String) : List Path :=
  (names.filter LicenseId.isFileName).map directory.child

/-- All files with the names of licences are licence files. -/
theorem filesAmong_fileNames (directory : Path) (ls : List License) :
    filesAmong directory (ls.map fun l => l.id.fileName)
      = ls.map fun l => directory.child l.id.fileName := by
  rw [filesAmong, List.filter_eq_self.2]
  · rw [List.map_map]
    rfl
  · intro name hname
    obtain ⟨l, -, rfl⟩ := List.mem_map.1 hname
    exact LicenseId.isFileName_fileName l.id

/-- The names that a listing gives, none if it fails. -/
def namesOf (listing : Except AccessFault (List String)) : List String :=
  listing.toOption.getD []

/-- The warning about a directory that cannot be listed; there is none if it is missing. -/
def listNotices (directory : Path) : Except AccessFault (List String) → List Notice
  | .ok _ | .error (.refused .missing _) => []
  | .error (.refused .notDirectory _) =>
    [.record .store .warning s!"El almacén no es un directorio: {directory}"]
  | .error fault =>
    [.record .store .warning s!"No se pudo listar el almacén [{directory}]: {fault.message}"]

section Observed

variable {m : Type → Type} [Monad m] [LawfulMonad m] [Host m] {σ : Type} [Observable σ]
  [Observed m σ] {s : σ}

open Observable Observed

/-- Listing the licence files of a directory gives those with the right name, and a warning if the
directory is there and cannot be listed. It reads no file. -/
theorem act_licenseFiles (h : (diskOf s).list directory ≠ .error .nul) :
    act (licenseFiles (m := m) directory).run s
      = (.ok (filesAmong directory (namesOf ((diskOf s).list directory))),
        after s [] (listNotices directory ((diskOf s).list directory))) := by
  rw [licenseFiles, act_run_lift_bind (act_list directory s)]
  cases hnames : (diskOf s).list directory with
  | ok names =>
    rw [listNotices, after_nil]
    exact act_run_pure _ _
  | error fault =>
    cases fault with
    | nul => exact absurd hnames h
    | refused fault p =>
      cases fault with
      | missing =>
        rw [listNotices, after_nil]
        exact act_run_pure _ _
      | _ => exact (act_run_lift_bind (act_report _ _)).trans (act_run_pure _ _)
    | _ => exact (act_run_lift_bind (act_report _ _)).trans (act_run_pure _ _)

/-- Beginning to go through a store lists its licence files and reads none of them. -/
theorem act_iterate (h : (diskOf s).list directory ≠ .error .nul) :
    act (iterate (m := m) directory).run s
      = (.ok (.ofFiles (filesAmong directory (namesOf ((diskOf s).list directory)))),
        after s [] (listNotices directory ((diskOf s).list directory))) := by
  rw [iterate, act_run_bind (act_licenseFiles h)]
  exact act_run_pure _ _

/-- Going through files reads each of them once, in order, and gives what can be read of them, with
a warning for each other one. -/
theorem act_readAll (files : List Path) (s : σ) :
    act (LicenseIterator.readAll (readLicense (m := m)) files) s
      = (readable (diskOf s) files, after s files (warnings (diskOf s) files)) := by
  induction files generalizing s with
  | nil => exact (act_pure _ _).trans (congrArg (Prod.mk []) (after_nil s).symm)
  | cons p rest ih =>
    rw [LicenseIterator.readAll, act_bind, act_readLicense]
    cases hlicense : (diskOf s).licenseAt p with
    | error e =>
      change act (storeNotice .warning _ >>= fun _ => _) (after s [p] []) = _
      rw [act_bind, storeNotice, act_report, ih, diskOf_after, diskOf_after, after_after,
        after_after, readable_cons_error hlicense, warnings_cons_error hlicense]
      rfl
    | ok l =>
      change act (LicenseIterator.readAll (readLicense (m := m)) rest >>= fun ls =>
        pure (l :: ls)) (after s [p] []) = _
      rw [act_bind, ih, act_pure, diskOf_after, after_after, readable_cons_ok hlicense,
        warnings_cons_ok hlicense]
      rfl

/-- Handing out all licences of some files reads them one after another. -/
theorem act_drain (files : List Path) (s : σ) :
    act ((LicenseIterator.ofFiles files).drain (readLicense (m := m))) s
      = ((readable (diskOf s) files, ⟨[], none⟩), after s files (warnings (diskOf s) files)) := by
  rw [LicenseIterator.drain, act_bind, LicenseIterator.ofFiles, act_readAll]
  exact act_pure _ _

/-- Going through a store gives the licences in its licence files, and a warning for each of these
that cannot be read; it reads no other files. If its directory cannot be listed, it has no licence
files. -/
theorem act_licenses {files : List Path}
    (hfiles : filesAmong directory (namesOf ((diskOf s).list directory)) = files)
    (h : (diskOf s).list directory ≠ .error .nul) :
    act (licenses (m := m) (.file directory true)).run s
      = (.ok (readable (diskOf s) files),
        after s files (listNotices directory ((diskOf s).list directory)
          ++ warnings (diskOf s) files)) := by
  have hdirectory : act (orFail (m := m) id (Store.directory (.file directory true))).run s
      = (.ok directory, s) := act_run_pure directory s
  rw [licenses, act_run_bind hdirectory, act_run_bind (act_iterate h), hfiles,
    act_run_lift_bind (act_drain files _), diskOf_after, after_after]
  exact act_run_pure _ _

end Observed

theorem run_licenseFiles (h : w.disk.list directory ≠ .error .nul) :
    run (licenseFiles (m := StateM Machine) directory) w
      = (.ok (filesAmong directory (namesOf (w.disk.list directory))),
        reporting w (listNotices directory (w.disk.list directory))) :=
  act_licenseFiles (m := StateM Machine) (s := w) h

theorem run_licenses_of_ne_nul {files : List Path}
    (hfiles : filesAmong directory (namesOf (w.disk.list directory)) = files)
    (h : w.disk.list directory ≠ .error .nul) :
    run (licenses (m := StateM Machine) (.file directory true)) w
      = (.ok (readable w.disk files),
        reporting w (listNotices directory (w.disk.list directory) ++ warnings w.disk files)) :=
  act_licenses (m := StateM Machine) (s := w) hfiles h

/-- Where the directory of a store can be listed, only files that cannot be read are worth a
warning. -/
theorem run_licenses {names : List String} (h : w.disk.list directory = .ok names) :
    run (licenses (m := StateM Machine) (.file directory true)) w
      = (.ok (readable w.disk (filesAmong directory names)),
        reporting w (warnings w.disk (filesAmong directory names))) := by
  have hnul : w.disk.list directory ≠ .error .nul := by
    rw [h]
    exact fun heq => nomatch heq
  have hrun := run_licenses_of_ne_nul rfl hnul
  rw [h] at hrun
  exact hrun

end Store

end LicenseDepot
