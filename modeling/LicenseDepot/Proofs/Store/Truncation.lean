import LicenseDepot.Proofs.Store.Reading

/-!
# Stores with files that are cut off

A file of a store that has been written in part is no licence to any operation: it cannot be
retrieved, and going through the store passes over it with one warning. Main statement:
`truncated_never_read`.
-/

namespace LicenseDepot.Store

open Machine Content

variable {b : Bytes}

theorem ofFileBytes_of_rejects (h : Content.Rejects b) :
    ∃ cause, License.ofFileBytes b = .error cause ∧
      (cause.typeName = "LicenseDecodeError" ∨ cause.typeName = "UnicodeDecodeError") := by
  rcases h with ⟨fault, hbytes, -⟩ | ⟨c, fault, hbytes, hlicense, htype⟩
  · refine ⟨.text fault, ?_, .inr rfl⟩
    rw [License.ofFileBytes, hbytes]
  · refine ⟨.content fault, ?_, .inl htype⟩
    rw [License.ofFileBytes, hbytes]
    simp only [hlicense]
    rfl

theorem licenseAt_of_read {d : Disk} {p : Path} (h : d.read p = .ok b) :
    d.licenseAt p = License.ofFileBytes b := by
  rw [Disk.licenseAt, h]

/-- What is read from a file that is no licence. -/
theorem retrieve_of_licenseAt_error {d : Disk} {p : Path} {r : Reference} {id : Option LicenseId}
    (hfile : r.fileOf id = .ok p) (hread : d.read p = .ok b) {cause : ReadFault}
    (h : License.ofFileBytes b = .error cause) :
    d.retrieve r id = .error (.unreadable p cause) := by
  simp only [Disk.retrieve, hfile, Disk.holds_of_read hread, licenseAt_of_read hread, h]

/-! A file among the files of a directory. -/

theorem nodup_filesAmong {directory : Path} {names : List String} (h : names.Nodup) :
    (filesAmong directory names).Nodup := by
  refine List.Nodup.map ?_ (h.filter _)
  intro m n hmn
  have hparts : directory.parts ++ [m] = directory.parts ++ [n] := congrArg Path.parts hmn
  exact List.head_eq_of_cons_eq (List.append_cancel_left hparts)

theorem readable_of_error {d : Disk} {p : Path} {cause : ReadFault}
    (h : d.licenseAt p = .error cause) (before after : List Path) :
    readable d (before ++ p :: after) = readable d (before ++ after) := by
  have hafter := readable_cons_error h after
  unfold readable at hafter ⊢
  rw [List.filterMap_append, hafter, ← List.filterMap_append]

theorem warnings_of_error {d : Disk} {p : Path} {cause : ReadFault}
    (h : d.licenseAt p = .error cause) (before after : List Path) :
    warnings d (before ++ p :: after) = warnings d before ++ skipNotice p :: warnings d after := by
  have hafter := warnings_cons_error h after
  unfold warnings at hafter ⊢
  rw [List.filter_append, List.map_append, hafter]

/-- A file that has been written in part is never read as a licence: its content is turned away,
retrieving it fails with its path, an iterator that comes to it goes on after one warning, and going
through its store gives the licences of all other files, with one warning for it. -/
theorem truncated_never_read (h : Truncated b) :
    Content.Rejects b ∧
    ∀ (w : Machine) (p : Path), w.disk.read p = .ok b →
      (∀ (r : Reference) (id : Option LicenseId),
        run (fileOf (m := StateM Machine) r id) w = (.ok p, w) →
        ∃ e w', run (retrieve (m := StateM Machine) r id) w = (.error e, w') ∧
          e.typeName = "IOFailure" ∧ e.path? = some p ∧
          (e.cause? = some "LicenseDecodeError" ∨ e.cause? = some "UnicodeDecodeError") ∧
          w'.disk = w.disk) ∧
      (∀ rest : List Path,
        LicenseIterator.findNext (readLicense (m := StateM Machine)) (p :: rest) w
          = LicenseIterator.findNext (readLicense (m := StateM Machine)) rest
            (w.noting (skipNotice p))) ∧
      (∀ (directory : Path) (names : List String) (name : String), p = directory.child name →
        w.disk.list directory = .ok names → name ∈ names → LicenseId.isFileName name = true →
        ∃ before after, filesAmong directory names = before ++ p :: after ∧
          p ∉ before ++ after ∧
          run (licenses (m := StateM Machine) (.file directory true)) w
            = (.ok (readable w.disk (before ++ after)), reporting w
              (warnings w.disk before ++ skipNotice p :: warnings w.disk after))) := by
  have hrejects := h.rejected
  obtain ⟨cause, hcause, htype⟩ := ofFileBytes_of_rejects hrejects
  refine ⟨hrejects, fun w p hread => ⟨fun r id hfile => ?_, fun rest => ?_, ?_⟩⟩
  · have hfile : r.fileOf id = .ok p := by
      rw [run_fileOf] at hfile
      exact congrArg Prod.fst hfile
    obtain ⟨hresult, hdisk⟩ := run_retrieve r id w
    rw [retrieve_of_licenseAt_error hfile hread hcause] at hresult
    exact ⟨_, _, Prod.ext hresult rfl, rfl, rfl,
      htype.imp (congrArg some) (congrArg some), hdisk⟩
  · exact findNext_cons_of_error ((licenseAt_of_read hread).trans hcause) rest
  · rintro directory names name rfl hlist hname hfileName
    obtain ⟨l, -, -, hnodup⟩ := Disk.exists_of_list hlist
    have hmem : directory.child name ∈ filesAmong directory names :=
      List.mem_map_of_mem (List.mem_filter.2 ⟨hname, hfileName⟩)
    obtain ⟨before, after, hfiles⟩ := List.append_of_mem hmem
    have hlicense := (licenseAt_of_read hread).trans hcause
    refine ⟨before, after, hfiles, ?_, ?_⟩
    · have hdistinct : (filesAmong directory names).Nodup := nodup_filesAmong hnodup
      rw [hfiles, List.nodup_middle, List.nodup_cons] at hdistinct
      exact hdistinct.1
    · rw [run_licenses hlist, hfiles, readable_of_error hlicense, warnings_of_error hlicense]

/-- The first bytes of any document. -/
def cutDocument : Bytes :=
  (Text.Utf8.encode LicenseDocument.declaration).take 30

theorem truncated_cutDocument : Truncated cutDocument := by
  obtain ⟨s, hs⟩ := Content.document_awkwardTerms
  obtain ⟨-, hdocument⟩ := LicenseDocument.write_eq_ok_iff.1 hs
  have hmore : Text.Utf8.encode LicenseDocument.declaration <+: Text.Utf8.encode s := by
    rw [hdocument, Text.Utf8.encode_append]
    exact List.prefix_append _ _
  refine .document hs ((List.take_prefix _ _).trans hmore) fun heq => ?_
  have hlength : cutDocument.length < (Text.Utf8.encode LicenseDocument.declaration).length := by
    decide
  rw [heq] at hlength
  exact absurd hmore.length_le (Nat.not_le.2 hlength)

/-- A machine whose root directory holds a licence file that is cut off, and nothing else. -/
def cutMachine : Machine :=
  ⟨.ofFile Content.awkwardTerms.id.fileName cutDocument, [], {}⟩

theorem read_cutMachine :
    cutMachine.disk.read (.child ⟨.root, []⟩ awkwardTerms.id.fileName) = .ok cutDocument :=
  (Disk.admits_fileName (Disk.locate_root _) Path.hasRoom_root _).read_file (Disk.get?_ofFile _ _)

theorem truncated_never_read_cutMachine :
    Content.Rejects cutDocument ∧
    (∃ e w', run (retrieve (m := StateM Machine) (.file ⟨.root, []⟩ true) (some awkwardTerms.id))
        cutMachine = (.error e, w') ∧
      e.path? = some (.child ⟨.root, []⟩ awkwardTerms.id.fileName)) ∧
    run (licenses (m := StateM Machine) (.file ⟨.root, []⟩ true)) cutMachine
      = (.ok [],
        reporting cutMachine [skipNotice (.child ⟨.root, []⟩ awkwardTerms.id.fileName)]) := by
  obtain ⟨hrejects, hstore⟩ := truncated_never_read truncated_cutDocument
  obtain ⟨hretrieve, -, hlicenses⟩ := hstore cutMachine _ read_cutMachine
  refine ⟨hrejects, ?_, ?_⟩
  · obtain ⟨e, w', hrun, -, hpath, -⟩ :=
      hretrieve (.file ⟨.root, []⟩ true) (some awkwardTerms.id) rfl
    exact ⟨e, w', hrun, hpath⟩
  · obtain ⟨before, after, hfiles, -, hrun⟩ := hlicenses _ _ _ rfl (Disk.list_ofFile _ _)
      List.mem_cons_self (LicenseId.isFileName_fileName _)
    have hone : filesAmong ⟨.root, []⟩ [awkwardTerms.id.fileName]
        = [.child ⟨.root, []⟩ awkwardTerms.id.fileName] := by
      rw [filesAmong, List.filter_cons_of_pos (LicenseId.isFileName_fileName _)]
      rfl
    rw [hone] at hfiles
    obtain ⟨rfl, rfl⟩ : before = [] ∧ after = [] := by
      have hlength := congrArg List.length hfiles
      simp at hlength
      exact ⟨List.eq_nil_of_length_eq_zero (by omega), List.eq_nil_of_length_eq_zero (by omega)⟩
    exact hrun

end LicenseDepot.Store
