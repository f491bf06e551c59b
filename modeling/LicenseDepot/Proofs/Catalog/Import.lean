import LicenseDepot.Catalog
import LicenseDepot.Proofs.Store.Writing

/-!
# Importing licences

A licence that has been imported is what is found next, wherever the file came from and whatever
links lead to it or to the store; a signed one is copied byte for byte. Main statement:
`importFile_faithful`.
-/

namespace LicenseDepot

/-- The licence in a file, and the files after it has been written to a store. -/
def Disk.importFile (d : Disk) (r : Reference) (source : Path) : Except Failure (License × Disk) :=
  match d.licenseAt source with
  | .error e => .error (.notImported source e)
  | .ok l => (d.store r l).map (Prod.mk l)

namespace Catalog

open Machine

variable {r : Reference} {l : License} {source : Path} {w w' : Machine}

theorem run_note (message : String) (w : Machine) :
    run (note (m := StateM Machine) message) w
      = (.ok (), w.noting (.record .catalog .info message)) := rfl

/-- Installing does to the files what writing to the store does. -/
theorem run_install (r : Reference) (l : License) (w : Machine) :
    (run (install (m := StateM Machine) r l) w).1 = (w.disk.store r l).map (fun _ => ()) ∧
      (run (install (m := StateM Machine) r l) w).2.disk
        = (w.disk.store r l).toOption.getD w.disk := by
  obtain ⟨hresult, hdisk⟩ := Store.run_store r l w
  rcases hrun : run (Store.store (m := StateM Machine) r l) w with ⟨x, v⟩
  rw [hrun] at hresult hdisk
  cases x with
  | error e =>
    rw [install, run_bind_error hrun]
    exact ⟨hresult, hdisk⟩
  | ok _ =>
    rw [install, run_bind_ok hrun, run_note]
    exact ⟨hresult, hdisk⟩

/-- Importing reads a file and does to all files what writing to the store does. -/
theorem run_importFile (r : Reference) (source : Path) (w : Machine) :
    (run (importFile (m := StateM Machine) r source) w).1
        = (w.disk.importFile r source).map Prod.fst ∧
      (run (importFile (m := StateM Machine) r source) w).2.disk
        = ((w.disk.importFile r source).map Prod.snd).toOption.getD w.disk := by
  have hread :
      run ((Store.readFile (m := StateM Machine) source).adapt (Failure.notImported source)) w
        = ((w.disk.licenseAt source).mapError (Failure.notImported source), w) := by
    rw [run_adapt, Store.run_readFile]
  unfold Disk.importFile
  cases hlicense : w.disk.licenseAt source with
  | error e =>
    rw [hlicense] at hread
    rw [importFile, run_bind_error hread]
    exact ⟨rfl, rfl⟩
  | ok l =>
    rw [hlicense] at hread
    obtain ⟨hresult, hdisk⟩ := run_install r l w
    rcases hrun : run (install (m := StateM Machine) r l) w with ⟨x, v⟩
    rw [hrun] at hresult hdisk
    rw [importFile, run_bind_ok hread]
    simp only
    cases hstore : w.disk.store r l with
    | error e =>
      rw [hstore] at hresult hdisk
      cases hresult
      rw [run_bind_error hrun]
      exact ⟨rfl, hdisk⟩
    | ok d =>
      rw [hstore] at hresult hdisk
      cases hresult
      rw [run_bind_ok hrun]
      exact ⟨rfl, hdisk⟩

theorem importFile_eq_ok_iff {d d' : Disk} :
    d.importFile r source = .ok (l, d') ↔
      d.licenseAt source = .ok l ∧ d.store r l = .ok d' := by
  unfold Disk.importFile
  cases d.licenseAt source with
  | error e => simp
  | ok m =>
    simp only [map_eq_ok_iff, Prod.mk.injEq, Except.ok.injEq]
    constructor
    · rintro ⟨d'', hstore, rfl, rfl⟩
      exact ⟨rfl, hstore⟩
    · rintro ⟨rfl, hstore⟩
      exact ⟨d', hstore, rfl, rfl⟩

/-- A licence that has been imported is what is found next in the store: under its identifier where
there is room for many licences, and without one where there is not. If it is signed, its sealed
bytes are those of the source and of the file it is kept in. An import that fails leaves all files
as they were. -/
theorem importFile_faithful (r : Reference) (source : Path) (w w' : Machine) :
    (∀ l, run (importFile (m := StateM Machine) r source) w = (.ok l, w') →
      (∃ found w'', run (find (m := StateM Machine) r (if r.isMulti then some l.id else none)) w'
        = (.ok (some found), w'') ∧ found = l ∧ found.same l = true) ∧
      ∀ bytes, l.sealed? = some bytes → w.disk.read source = .ok bytes ∧
        ∃ p, Store.fileFor r l = .ok p ∧ w'.disk.read p = .ok bytes) ∧
    (∀ e, run (importFile (m := StateM Machine) r source) w = (.error e, w') →
      w'.disk = w.disk) := by
  obtain ⟨hresult, hdisk⟩ := run_importFile r source w
  constructor
  · intro l hrun
    rw [hrun] at hresult hdisk
    obtain ⟨⟨m, d⟩, himport, rfl⟩ := map_eq_ok_iff.1 hresult.symm
    rw [himport] at hdisk
    obtain ⟨hlicense, hstore⟩ := importFile_eq_ok_iff.1 himport
    obtain ⟨data, hread, hdata⟩ := Store.licenseAt_eq_ok_iff.1 hlicense
    have hd : w'.disk = d := hdisk
    constructor
    · refine ⟨m, (run (find (m := StateM Machine) r (r.keyOf m)) w').2, ?_, rfl,
        License.same_refl m⟩
      have hfound := (Store.run_retrieve r (r.keyOf m) w').1
      rw [hd, Store.retrieve_store (License.readsBack_of_ofFileBytes hdata) hstore,
        License.asRead_of_ofFileBytes hdata] at hfound
      exact Prod.ext hfound rfl
    · intro bytes hsealed
      have hbytes := License.sealed?_of_ofFileBytes hdata hsealed
      obtain ⟨p, written, hp, hwritten, hwrite⟩ := Store.store_eq_ok_iff.1 hstore
      rw [hbytes] at hread
      refine ⟨hread, p, hp, ?_⟩
      rw [License.fileBytes_of_sealed? hsealed] at hwritten
      cases hwritten
      rw [hd]
      exact Disk.read_write hwrite
  · intro e hrun
    rw [hrun] at hresult hdisk
    cases himport : w.disk.importFile r source with
    | ok x =>
      rw [himport] at hresult
      cases hresult
    | error e' =>
      rw [himport] at hdisk
      exact hdisk

/-- A machine whose root directory holds one file to be imported, and nothing else. -/
def inbox (content : Bytes) : Machine :=
  ⟨.ofFile "in" content, [], {}⟩

/-- The terms of a document in the inbox are imported. -/
theorem importFile_inbox {s : List Char} {t : Terms} (h : LicenseDocument.write t = .ok s) :
    ∃ w', run (importFile (m := StateM Machine) (.file (.child ⟨.root, []⟩ "out") false)
      (.child ⟨.root, []⟩ "in")) (inbox (Text.Utf8.encode s))
        = (.ok (.plain (LicenseDocument.termsAsRead t)), w') := by
  obtain ⟨hwritable, -⟩ := LicenseDocument.write_eq_ok_iff.1 h
  have hadmits : ∀ name ∈ ["in", "out"],
      (inbox (Text.Utf8.encode s)).disk.Admits ⟨.root, []⟩ [] name := by
    intro name hname
    have hlength : Path.byteLength name ≤ 3 ∧ '\x00' ∉ name.toList ∧ name ≠ ".." := by
      revert name
      decide
    refine ⟨Disk.locate_root _, ?_, hlength.2.1, hlength.1.trans (by decide), hlength.2.2⟩
    rw [Disk.byteLength_child_root]
    exact (Nat.add_le_add_left hlength.1 1).trans_lt (by decide)
  have hlicense : (inbox (Text.Utf8.encode s)).disk.licenseAt (.child ⟨.root, []⟩ "in")
      = .ok (.plain (LicenseDocument.termsAsRead t)) := by
    rw [Disk.licenseAt, (hadmits "in" (by decide)).read_file (Disk.get?_ofFile _ _)]
    exact License.ofFileBytes_eq_ok_iff.2
      ⟨_, Content.ofBytes_encode_write h, Content.toLicense_write h⟩
  have hfree : ∀ x, (inbox (Text.Utf8.encode s)).disk.tree.get? ([] ++ ["out"]) = some x →
      ∃ old, x = .file old := by
    intro x hx
    rw [inbox, Disk.get?_ofFile_of_ne (by decide)] at hx
    cases hx
  obtain ⟨data, hdata⟩ : ∃ data,
      (License.plain (LicenseDocument.termsAsRead t)).fileBytes = .ok data :=
    ⟨_, map_eq_ok_iff.2 ⟨_, LicenseDocument.write_eq_ok_iff.2 ⟨hwritable.asRead, rfl⟩, rfl⟩⟩
  have hstore := (Store.store_eq_ok_iff (r := .file (.child ⟨.root, []⟩ "out") false)).2
    ⟨_, _, rfl, hdata, (hadmits "out" (by decide)).write_child hfree _⟩
  have hresult := (run_importFile (.file (.child ⟨.root, []⟩ "out") false)
    (.child ⟨.root, []⟩ "in") (inbox (Text.Utf8.encode s))).1
  rw [importFile_eq_ok_iff.2 ⟨hlicense, hstore⟩] at hresult
  exact ⟨_, Prod.ext hresult rfl⟩

theorem importFile_faithful_inbox :
    ∃ w w' l, run (importFile (m := StateM Machine) (.file (.child ⟨.root, []⟩ "out") false)
        (.child ⟨.root, []⟩ "in")) w = (.ok l, w') ∧
      ∃ w'', run (find (m := StateM Machine) (.file (.child ⟨.root, []⟩ "out") false) none) w'
        = (.ok (some l), w'') := by
  obtain ⟨s, hs⟩ := Content.document_awkwardTerms
  obtain ⟨w', hrun⟩ := importFile_inbox hs
  obtain ⟨himport, -⟩ := importFile_faithful (.file (.child ⟨.root, []⟩ "out") false)
    (.child ⟨.root, []⟩ "in") (inbox (Text.Utf8.encode s)) w'
  obtain ⟨⟨_, w'', hfind, rfl, -⟩, -⟩ := himport _ hrun
  exact ⟨_, w', _, hrun, w'', hfind⟩

end Catalog

end LicenseDepot
