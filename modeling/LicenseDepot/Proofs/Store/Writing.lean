import LicenseDepot.Proofs.Store.Reading

/-!
# Writing licences to a store

Writing either fails and leaves all files alone, or writes one file, the one in which the licence is
looked for next. `Disk.store` says which. Main statements: `run_store` and `retrieve_store`.
-/

namespace LicenseDepot

/-- The files after a licence has been written to a store. -/
def Disk.store (d : Disk) (r : Reference) (l : License) : Except Failure Disk :=
  match Store.fileFor r l with
  | .error e => .error (.reference e)
  | .ok p =>
    match Store.bytesFor l p with
    | .error e => .error e
    | .ok data =>
      match d.write p data with
      | .error .nul => .error (.access .nul)
      | .error e => .error (.unwritable p e)
      | .ok d' => .ok d'

/-- The identifier with which the licence that is written to a store is looked for. -/
def Reference.keyOf (r : Reference) (l : License) : Option LicenseId :=
  if r.isMulti then some l.id else none

namespace Store

open Machine

variable {d d' : Disk} {r : Reference} {l : License} {p : Path}

/-- A licence is looked for in the file that it is written to. -/
theorem fileOf_keyOf (r : Reference) (l : License) :
    r.fileOf (r.keyOf l) = (fileFor r l).mapError .reference := by
  unfold Reference.keyOf fileFor
  cases hmulti : r.isMulti with
  | true => rfl
  | false =>
    simp only [Bool.false_eq_true, if_false, Reference.fileOf, hmulti]
    cases r.path with
    | error e => rfl
    | ok p => rfl

/-- What is written depends on the files and the licence alone, and nothing is written by an
operation that fails. -/
theorem run_store (r : Reference) (l : License) (w : Machine) :
    (run (store (m := StateM Machine) r l) w).1 = (w.disk.store r l).map (fun _ => ()) ∧
      (run (store (m := StateM Machine) r l) w).2.disk
        = (w.disk.store r l).toOption.getD w.disk := by
  refine run_measured (P := fun x d => x = (w.disk.store r l).map (fun _ => ()) ∧
    d = (w.disk.store r l).toOption.getD w.disk) fun v hv => ?_
  rw [← hv]
  have hfile := run_orFail Failure.reference (fileFor r l) v
  unfold Disk.store
  cases hp : fileFor r l with
  | error e =>
    rw [hp] at hfile
    rw [run_bind_error hfile]
    exact ⟨rfl, rfl⟩
  | ok p =>
    rw [hp] at hfile
    rw [run_bind_ok hfile]
    have hbytes := run_orFail id (bytesFor l p) v
    cases hdata : bytesFor l p with
    | error e =>
      rw [hdata] at hbytes
      rw [run_bind_error hbytes]
      simp only [hdata]
      exact ⟨rfl, rfl⟩
    | ok data =>
      rw [hdata] at hbytes
      rw [run_bind_ok hbytes, run_lift_bind]
      simp only [hdata]
      have hwrite : (Host.write p data : StateM Machine _) v
          = Machine.change (·.write p data) v := rfl
      rw [hwrite, Machine.change]
      cases v.disk.write p data with
      | ok d' => exact ⟨rfl, rfl⟩
      | error e =>
        cases e with
        | nul => exact ⟨rfl, rfl⟩
        | _ => exact ⟨rfl, rfl⟩

/-- Writing a licence that succeeds writes its bytes to its file. -/
theorem store_eq_ok_iff :
    d.store r l = .ok d' ↔
      ∃ p data, fileFor r l = .ok p ∧ l.fileBytes = .ok data ∧ d.write p data = .ok d' := by
  unfold Disk.store
  cases fileFor r l with
  | error e => simp
  | ok p =>
    have hbytes : ∀ data, bytesFor l p = .ok data ↔ l.fileBytes = .ok data := by
      intro data
      unfold bytesFor
      split
      · rename_i hdata
        simp [hdata]
      · rename_i hdata
        simp [hdata]
      · rename_i hdata
        simp [hdata]
    cases hdata : bytesFor l p with
    | error e =>
      have hnone : ∀ data, l.fileBytes ≠ .ok data := by
        intro data h
        rw [(hbytes data).2 h] at hdata
        cases hdata
      simp [hdata, hnone]
    | ok data =>
      have hfile := (hbytes data).1 hdata
      simp only [hdata, Except.ok.injEq, hfile, exists_and_left, exists_eq_left']
      cases d.write p data with
      | ok d'' => simp
      | error e => cases e <;> simp

/-- A licence that reads back is found as soon as it has been written, as it is read. -/
theorem retrieve_store (hl : l.ReadsBack) (h : d.store r l = .ok d') :
    d'.retrieve r (r.keyOf l) = .ok (some l.asRead) := by
  obtain ⟨p, data, hp, hdata, hwrite⟩ := store_eq_ok_iff.1 h
  have hread := Disk.read_write hwrite
  have hfile : r.fileOf (r.keyOf l) = .ok p := by
    rw [fileOf_keyOf, hp]
    rfl
  have hlicense : d'.licenseAt p = .ok l.asRead := by
    rw [Disk.licenseAt, hread]
    exact hl data hdata
  simp only [Disk.retrieve, hfile, Disk.holds_of_read hread, hlicense]

/-! Removing files. -/

/-- Removing a file removes what its path names; if that cannot be done it is worth a warning, and
if there is nothing it is not. -/
theorem run_removeFile (p : Path) (w : Machine) :
    run (removeFile (m := StateM Machine) p) w
      = match w.disk.unlink p with
        | .ok d => (.ok (), { w with disk := d })
        | .error .nul => (.error (.access .nul), w)
        | .error (.refused .missing _) => (.ok (), w)
        | .error e =>
          (.ok (),
            w.noting (.record .store .warning s!"No se pudo borrar [{p}]: {e.message}")) := by
  have hunlink : (Host.unlink p : StateM Machine _) w = Machine.change (·.unlink p) w := rfl
  rw [removeFile, run_lift_bind, hunlink, Machine.change]
  cases w.disk.unlink p with
  | ok d => rfl
  | error e =>
    cases e with
    | refused fault q =>
      cases fault with
      | _ => rfl
    | _ => rfl

/-- What removing a directory with all that is in it does, and what it notes if it is not done. -/
theorem run_removeAll (p : Path) (w : Machine) :
    run (removeAll (m := StateM Machine) p) w
      = match w.disk.removeTree p with
        | (d, .ok ()) => (.ok (), { w with disk := d })
        | (d, .error .nul) => (.error (.access .nul), { w with disk := d })
        | (d, .error e) => (.ok (), Machine.noting { w with disk := d }
            (.record .store .debug
              s!"Borrado del almacén [{p}] incompleto: {e.message}")) := by
  have hremove : (Host.removeTree p : StateM Machine _) w
      = ((w.disk.removeTree p).2, { w with disk := (w.disk.removeTree p).1 }) := rfl
  rw [removeAll, run_lift_bind, hremove]
  rcases w.disk.removeTree p with ⟨d, ⟨⟩ | e⟩
  · cases ‹AccessFault› <;> rfl
  · rfl

end Store

end LicenseDepot
