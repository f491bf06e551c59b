import LicenseDepot.Proofs.Machine
import LicenseDepot.Store

/-!
# What leaves the files of a store alone

Everything that only reads, an iterator in whatever state included, leaves all files as they are,
whether it fails or not.
-/

namespace LicenseDepot.Store

open Machine

/-- A value that has been worked out before is given without touching a file. -/
theorem keepsDisk_orFail {ε α : Type} (wrap : ε → Failure) (x : Except ε α) :
    KeepsDisk (orFail (m := StateM Machine) wrap x).run := by
  cases x with
  | ok a => exact keepsDisk_pure _
  | error e => exact keepsDisk_pure _

theorem keepsDisk_storeNotice (level : Level) (message : String) :
    KeepsDisk (storeNotice level message) :=
  keepsDisk_report _

/-- Reading a licence (`_read_license`) leaves the files alone, also where it fails. -/
theorem keepsDisk_readLicense (p : Path) : KeepsDisk (readLicense p).run := by
  refine KeepsDisk.bind ((keepsDisk_read p).bind fun r => ?_) fun _ => keepsDisk_pure _
  cases r with
  | error e => exact keepsDisk_pure _
  | ok data =>
    dsimp only
    split
    · exact keepsDisk_pure _
    · exact keepsDisk_pure _

/-- Asking whether a licence is there (`contains`) leaves the files alone. -/
theorem keepsDisk_contains (r : Reference) (id : LicenseId) : KeepsDisk (contains r id).run :=
  (keepsDisk_orFail _ _).run_bind fun p =>
    (keepsDisk_holds p).lift.run_bind fun _ => keepsDisk_orFail _ _

/-! Iterators. -/

/-- Looking for the next licence reads files up to one that holds a licence, by induction on the
files that are left. -/
theorem keepsDisk_findNext (files : List Path) :
    KeepsDisk (LicenseIterator.findNext readLicense files) := by
  induction files with
  | nil => exact keepsDisk_pure _
  | cons file rest ih =>
    refine (keepsDisk_readLicense file).bind fun r => ?_
    cases r with
    | ok l => exact keepsDisk_pure _
    | error e => exact (keepsDisk_storeNotice _ _).bind fun _ => ih

theorem keepsDisk_look (it : LicenseIterator) : KeepsDisk (it.look readLicense) := by
  unfold LicenseIterator.look
  split
  · exact keepsDisk_pure _
  · exact keepsDisk_findNext _

/-- Asking an iterator for more (`has_next`) leaves the files alone, in whatever state it is. -/
theorem keepsDisk_hasNext (it : LicenseIterator) : KeepsDisk (it.hasNext readLicense) :=
  (keepsDisk_look it).bind fun _ => keepsDisk_pure _

/-- So does handing out a licence (`next`). -/
theorem keepsDisk_next (it : LicenseIterator) : KeepsDisk (it.next readLicense) := by
  refine (keepsDisk_look it).bind fun it => ?_
  split
  · exact keepsDisk_pure _
  · exact keepsDisk_pure _

/-- Reading all files leaves them as they are, by induction on the files. -/
theorem keepsDisk_readAll (files : List Path) :
    KeepsDisk (LicenseIterator.readAll readLicense files) := by
  induction files with
  | nil => exact keepsDisk_pure _
  | cons file rest ih =>
    refine (keepsDisk_readLicense file).bind fun r => ?_
    cases r with
    | ok l => exact ih.bind fun _ => keepsDisk_pure _
    | error e => exact (keepsDisk_storeNotice _ _).bind fun _ => ih

theorem keepsDisk_drain (it : LicenseIterator) : KeepsDisk (it.drain readLicense) :=
  (keepsDisk_readAll it.files).bind fun _ => keepsDisk_pure _

/-- Listing the licence files of a directory (`list_license_files`) leaves them alone, on each of
the ways in which a listing ends. -/
theorem keepsDisk_licenseFiles (directory : Path) :
    KeepsDisk (licenseFiles (m := StateM Machine) directory).run := by
  refine (keepsDisk_list directory).lift.run_bind fun r => ?_
  split
  · exact keepsDisk_pure _
  · exact keepsDisk_pure _
  · exact keepsDisk_pure _
  · exact (keepsDisk_storeNotice _ _).lift.run_bind fun _ => keepsDisk_pure _
  · exact (keepsDisk_storeNotice _ _).lift.run_bind fun _ => keepsDisk_pure _

theorem keepsDisk_iterate (directory : Path) :
    KeepsDisk (iterate (m := StateM Machine) directory).run :=
  (keepsDisk_licenseFiles directory).run_bind fun _ => keepsDisk_pure _

/-- Going through all licences of a store leaves the files alone. -/
theorem keepsDisk_licenses (r : Reference) : KeepsDisk (licenses (m := StateM Machine) r).run :=
  (keepsDisk_orFail _ _).run_bind fun p => (keepsDisk_iterate p).run_bind fun it =>
    (keepsDisk_drain it).lift.run_bind fun _ => keepsDisk_pure _

end LicenseDepot.Store
