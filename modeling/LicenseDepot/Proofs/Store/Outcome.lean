import LicenseDepot.Proofs.Content.Conversion
import LicenseDepot.Proofs.Files.Stat
import LicenseDepot.Proofs.Store.Reading

/-!
# How reading a licence ends

A retrieval fails for the reference, finds nothing, is refused by the file system, gives a licence,
or fails because what it has found is unreadable; which of these it is can be told from the
reference and from what the path leads to. Asking whether a licence is there ends in the same way,
but does not look at what it has found. Main statements: `yields_iff` and `retrieve_ends`.
-/

namespace LicenseDepot

/-- The path of the file that a licence is looked for in: with an identifier that of its file in a
store with room for many, and without one that of a store with a single licence. -/
inductive Reference.LooksAt : Reference → Option LicenseId → Path → Prop
  | many (directory : Path) (id : LicenseId) :
      LooksAt (.file directory true) (some id) (directory.child id.fileName)
  | single (p : Path) : LooksAt (.file p false) none p

/-- A reference cannot be resolved, is of the wrong kind for what is asked, or leads to a path. -/
theorem Reference.looksAt_cases (r : Reference) (id : Option LicenseId) :
    (∃ name, r = .opaqueKind name) ∨
      (∃ p, r = .file p true ∧ id = none ∨ r = .file p false ∧ id ≠ none) ∨
      ∃ p, r.LooksAt id p := by
  cases r with
  | opaqueKind name => exact .inl ⟨name, rfl⟩
  | file p multi =>
    cases multi with
    | true =>
      cases id with
      | none => exact .inr (.inl ⟨p, .inl ⟨rfl, rfl⟩⟩)
      | some id => exact .inr (.inr ⟨_, .many p id⟩)
    | false =>
      cases id with
      | none => exact .inr (.inr ⟨p, .single p⟩)
      | some id => exact .inr (.inl ⟨p, .inr ⟨rfl, by simp⟩⟩)

theorem Reference.LooksAt.fileOf {r : Reference} {id : Option LicenseId} {p : Path}
    (h : r.LooksAt id p) : r.fileOf id = .ok p := by
  cases h with
  | many directory id => rfl
  | single p => rfl

/-- Why what a path leads to is no licence. -/
inductive Disk.ReadFails (d : Disk) (p : Path) : ReadFault → Prop
  /-- It leads to a directory. -/
  | directory (h : d.stat p = .ok .directory) : d.ReadFails p (.access (.refused .isDirectory p))
  /-- It leads to a file that begins like a document and is no text. -/
  | text {data : Bytes} {fault : Text.Utf8.Fault} (h : d.stat p = .ok (.file data))
      (hdata : Content.ofBytes data = .error fault) : d.ReadFails p (.text fault)
  /-- It leads to a file whose content holds no licence. -/
  | content {data : Bytes} {c : Content} {fault : Content.Fault} (h : d.stat p = .ok (.file data))
      (hdata : Content.ofBytes data = .ok c) (hc : c.toLicense = .error fault) :
      d.ReadFails p (.content fault)

/-- The rows of the table: how looking for a licence along a path ends. -/
inductive Disk.Yields (d : Disk) (p : Path) : Except Failure (Option License) → Prop
  | absent (h : d.IsAbsent p) : d.Yields p (.ok none)
  | refused {fault : FileFault} (h : d.stat p = .error (.refused fault p))
      (hnumber : fault.number ∉ absentNumbers) :
      d.Yields p (.error (.access (.refused fault p)))
  | licence {data : Bytes} {c : Content} {l : License} (h : d.stat p = .ok (.file data))
      (hdata : Content.ofBytes data = .ok c) (hc : c.toLicense = .ok l) : d.Yields p (.ok (some l))
  | unreadable {cause : ReadFault} (h : d.ReadFails p cause) :
      d.Yields p (.error (.unreadable p cause))

namespace Store

open Machine

variable {d : Disk} {r : Reference} {id : Option LicenseId} {p : Path}
  {x : Except Failure (Option License)}

/-- What is retrieved along a path, in terms of what the path leads to. -/
theorem retrieve_eq_stat (h : r.LooksAt id p) :
    d.retrieve r id = match d.stat p with
      | .ok (.file data) =>
        match License.ofFileBytes data with
        | .ok l => .ok (some l)
        | .error e => .error (.unreadable p e)
      | .ok _ => .error (.unreadable p (.access (.refused .isDirectory p)))
      | .error .nul => .ok none
      | .error (.refused fault q) =>
        if fault.meansAbsent then .ok none else .error (.access (.refused fault q))
      | .error e => .error (.access e) := by
  unfold Disk.retrieve Disk.licenseAt
  simp only [h.fileOf, Disk.holds_eq_stat, Disk.read_eq_stat]
  cases d.stat p with
  | ok n =>
    cases n with
    | file data =>
      simp only
      cases License.ofFileBytes data <;> rfl
    | directory => rfl
    | link target => rfl
  | error e =>
    cases e with
    | refused fault q =>
      cases hmeans : fault.meansAbsent with
      | true => simp [hmeans]
      | false => simp [hmeans]
    | nul => rfl
    | unlistable q => rfl
    | throughLink => rfl

/-- The faults for which a path counts as leading to nothing are told by their numbers. -/
theorem number_mem_of_stat {fault : FileFault} (h : d.stat p = .error (.refused fault p)) :
    (fault.number ∈ Disk.absentNumbers ↔ fault.meansAbsent = true) ∧
      (fault.number ∉ Disk.absentNumbers → fault = .nameTooLong) := by
  rcases Disk.fault_of_stat h with ⟨heq, -⟩ | ⟨f, heq, hf⟩
  · cases heq
  · cases heq
    have hiff := Disk.number_mem_absentNumbers_iff hf
    exact ⟨hiff, fun hno => hf.resolve_left (mt hiff.2 hno)⟩

/-- The table says how a retrieval ends. -/
theorem eq_retrieve_of_yields (h : r.LooksAt id p) (hx : d.Yields p x) :
    x = d.retrieve r id := by
  rw [retrieve_eq_stat h]
  cases hx with
  | absent habsent =>
    rcases habsent with hnul | ⟨fault, hfault, hnumber⟩
    · rw [Disk.stat_of_hasNul hnul]
    · rw [hfault]
      exact (if_pos ((number_mem_of_stat hfault).1.1 hnumber)).symm
  | refused hfault hnumber =>
    rw [hfault]
    exact (if_neg (mt (number_mem_of_stat hfault).1.2 hnumber)).symm
  | licence hstat hdata hc =>
    rw [hstat]
    simp only [License.ofFileBytes_eq_ok_iff.2 ⟨_, hdata, hc⟩]
  | unreadable hcause =>
    cases hcause with
    | directory hstat => rw [hstat]
    | text hstat hdata =>
      rw [hstat]
      simp only [License.ofFileBytes, hdata]
    | content hstat hdata hc =>
      rw [hstat]
      simp only [License.ofFileBytes, hdata, hc, mapError_error]

/-- The table has a row for each retrieval. -/
theorem yields_retrieve (h : r.LooksAt id p) : d.Yields p (d.retrieve r id) := by
  have hrow : ∃ x, d.Yields p x := by
    cases hstat : d.stat p with
    | error e =>
      rcases Disk.fault_of_stat hstat with ⟨rfl, hnul⟩ | ⟨fault, rfl, -⟩
      · exact ⟨_, .absent (.inl hnul)⟩
      · by_cases hnumber : fault.number ∈ Disk.absentNumbers
        · exact ⟨_, .absent (.inr ⟨fault, hstat, hnumber⟩)⟩
        · exact ⟨_, .refused hstat hnumber⟩
    | ok n =>
      cases n with
      | link target => exact absurd hstat (Disk.stat_ne_link d p target)
      | directory => exact ⟨_, .unreadable (.directory hstat)⟩
      | file data =>
        cases hdata : Content.ofBytes data with
        | error fault => exact ⟨_, .unreadable (.text hstat hdata)⟩
        | ok c =>
          cases hc : c.toLicense with
          | error fault => exact ⟨_, .unreadable (.content hstat hdata hc)⟩
          | ok l => exact ⟨_, .licence hstat hdata hc⟩
  obtain ⟨x, hx⟩ := hrow
  rw [← eq_retrieve_of_yields h hx]
  exact hx

/-- The table has one row for each retrieval, and it says how the retrieval ends. -/
theorem yields_iff (h : r.LooksAt id p) : d.Yields p x ↔ x = d.retrieve r id := by
  constructor
  · exact eq_retrieve_of_yields h
  · rintro rfl
    exact yields_retrieve h

/-- What a path leads to is unreadable for one reason. -/
theorem readFails_unique {cause cause' : ReadFault} (h : d.ReadFails p cause)
    (h' : d.ReadFails p cause') : cause = cause' := by
  have hrow := eq_retrieve_of_yields (.single p) (.unreadable h)
  have hrow' := eq_retrieve_of_yields (.single p) (.unreadable h')
  rw [← hrow'] at hrow
  cases hrow
  rfl

/-! What failures tell. -/

theorem retrieve_opaqueKind (d : Disk) (name : String) (id : Option LicenseId) :
    d.retrieve (.opaqueKind name) id = .error (.reference (.unsupported name)) := by
  cases id <;> rfl

theorem typeName_ne_of_access (e : AccessFault) : (Failure.access e).typeName ≠ "IOFailure" := by
  have hfile : ∀ fault : FileFault, fault.typeName ≠ "IOFailure" := by
    intro fault
    unfold FileFault.typeName
    split <;> decide
  cases e with
  | refused fault p => exact hfile fault
  | nul => exact by decide
  | unlistable p => exact hfile .notDirectory
  | throughLink => exact by decide

/-- Whether a licence is there is answered as the licence is retrieved, except that what has been
found is not looked at. -/
theorem contains_agrees (d : Disk) (r : Reference) (id : LicenseId) :
    (∀ e, d.contains r id = .error e ↔
      d.retrieve r (some id) = .error e ∧ e.typeName ≠ "IOFailure") ∧
    (d.contains r id = .ok false ↔ d.retrieve r (some id) = .ok none) ∧
    (d.contains r id = .ok true ↔ (∃ l, d.retrieve r (some id) = .ok (some l)) ∨
      ∃ e, d.retrieve r (some id) = .error e ∧ e.typeName = "IOFailure") := by
  have herror : ∀ {e : Failure}, e.typeName ≠ "IOFailure" → ∀ e',
      ((.error e : Except Failure Bool) = .error e' ↔
        (.error e : Except Failure (Option License)) = .error e' ∧ e'.typeName ≠ "IOFailure") := by
    intro e he e'
    constructor
    · rintro ⟨⟩
      exact ⟨rfl, he⟩
    · rintro ⟨⟨⟩, -⟩
      rfl
  unfold Disk.contains Disk.retrieve
  cases hfile : r.fileOf (some id) with
  | error e =>
    have hreference : e.typeName ≠ "IOFailure" := by
      obtain ⟨fault, -, rfl⟩ := mapError_eq_error_iff.1 hfile
      cases fault <;> simp [Failure.typeName]
    exact ⟨herror hreference, by simp, by simp [hreference]⟩
  | ok p =>
    cases hthere : d.holds p with
    | error e =>
      have haccess := typeName_ne_of_access e
      simp only [hthere, mapError_error]
      exact ⟨herror haccess, by simp, by simp [haccess]⟩
    | ok there =>
      cases there with
      | false => simp [hthere]
      | true =>
        cases hlicense : d.licenseAt p with
        | error e =>
          have hfailure : (Failure.unreadable p e).typeName = "IOFailure" := rfl
          simp [hthere, hlicense, hfailure]
        | ok l => simp [hthere, hlicense]

end Store

/-- A failure to read what a path leads to names the path and the kind of what lies behind it. -/
structure Failure.TellsOf (e : Failure) (p : Path) (cause : ReadFault) : Prop where
  typeName : e.typeName = "IOFailure"
  path : e.path? = some p
  message : p.toText.toList <:+: e.message.toList
  behind : e.cause? = some cause.typeName
  kind : cause.typeName ∈
    "IsADirectoryError" :: "LicenseDecodeError" :: Content.lookupOrValueErrors

theorem Disk.ReadFails.tellsOf {d : Disk} {p : Path} {cause : ReadFault}
    (h : d.ReadFails p cause) : (Failure.unreadable p cause).TellsOf p cause where
  typeName := rfl
  path := rfl
  message := by
    refine ⟨"No se pudo leer la licencia de [".toList, ("]: " ++ cause.message).toList, ?_⟩
    rw [← String.toList_append, ← String.toList_append]
    congr 1
    show _ = s!"No se pudo leer la licencia de [{p}]: {cause.message}"
    simp only [String.append_assoc]
    rfl
  behind := rfl
  kind := by
    cases h with
    | directory h =>
      show "IsADirectoryError" ∈ _
      decide
    | text h hdata =>
      show "UnicodeDecodeError" ∈ _
      decide
    | @content data c fault h hdata hc =>
      by_cases hencoding : ∃ e, fault = .encoding e
      · obtain ⟨e, rfl⟩ := hencoding
        exact List.mem_cons_of_mem _ (List.mem_cons_of_mem _ (Content.typeName_encoding_mem e))
      · have htype : fault.typeName = "LicenseDecodeError" :=
          Content.typeName_eq_iff.2 fun e he => hencoding ⟨e, he⟩
        rw [show (ReadFault.content fault).typeName = fault.typeName from rfl, htype]
        decide

namespace Store

open Machine

variable {d : Disk} {r : Reference} {id : Option LicenseId} {p : Path}
  {x : Except Failure (Option License)} {e : Failure}

/-- Only what is too long is refused bare. -/
theorem typeName_of_refused {fault : FileFault} (h : d.stat p = .error (.refused fault p))
    (hnumber : fault.number ∉ Disk.absentNumbers) :
    (Failure.access (.refused fault p)).typeName = "OSError" := by
  rw [(number_mem_of_stat h).2 hnumber]
  rfl

theorem typeName_of_yields (h : d.Yields p (.error e)) :
    e.typeName = "IOFailure" ∨ e.typeName = "OSError" := by
  cases h with
  | refused hstat hnumber => exact .inr (typeName_of_refused hstat hnumber)
  | unreadable hcause => exact .inl rfl

/-- The kinds of failure that a retrieval can end with, and the references that two of them are
for. -/
theorem typeName_of_retrieve (h : d.retrieve r id = .error e) :
    (e.typeName = "UnsupportedReferenceKind" ↔ ∃ name, r = .opaqueKind name) ∧
    (e.typeName = "WrongStoreKind" ↔
      ∃ p, r = .file p true ∧ id = none ∨ r = .file p false ∧ id ≠ none) ∧
    (e.typeName ≠ "IOFailure" ↔
      e.typeName ∈ ["UnsupportedReferenceKind", "WrongStoreKind", "OSError"]) := by
  rcases r.looksAt_cases id with ⟨name, rfl⟩ | ⟨p, ⟨rfl, rfl⟩ | ⟨rfl, hid⟩⟩ | ⟨p, hlooks⟩
  · rw [retrieve_opaqueKind] at h
    cases h
    simp [Failure.typeName]
  · cases h
    simp [Failure.typeName]
  · obtain ⟨i, rfl⟩ := Option.ne_none_iff_exists'.1 hid
    cases h
    simp [Failure.typeName]
  · have hopaque : ¬ ∃ name, r = .opaqueKind name := by
      rintro ⟨name, rfl⟩
      cases hlooks
    have hwrong : ¬ ∃ p, r = .file p true ∧ id = none ∨ r = .file p false ∧ id ≠ none := by
      rintro ⟨p, ⟨rfl, rfl⟩ | ⟨rfl, hid⟩⟩
      · cases hlooks
      · cases hlooks
        exact hid rfl
    have hyields : d.Yields p (d.retrieve r id) := yields_retrieve hlooks
    rw [h] at hyields
    rcases typeName_of_yields hyields with htype | htype
    · simp [htype, hopaque, hwrong]
    · simp [htype, hopaque, hwrong]

/-- References that are opaque or of the wrong kind are turned away, and no others are. -/
theorem retrieve_turned_away :
    ((∃ e, d.retrieve r id = .error e ∧ e.typeName = "UnsupportedReferenceKind") ↔
      ∃ name, r = .opaqueKind name) ∧
    ((∃ e, d.retrieve r id = .error e ∧ e.typeName = "WrongStoreKind") ↔
      ∃ p, r = .file p true ∧ id = none ∨ r = .file p false ∧ id ≠ none) := by
  constructor
  · constructor
    · rintro ⟨e, he, htype⟩
      exact (typeName_of_retrieve he).1.1 htype
    · rintro ⟨name, rfl⟩
      exact ⟨_, retrieve_opaqueKind d name id, rfl⟩
  · constructor
    · rintro ⟨e, he, htype⟩
      exact (typeName_of_retrieve he).2.1.1 htype
    · rintro ⟨p, ⟨rfl, rfl⟩ | ⟨rfl, hid⟩⟩
      · exact ⟨_, rfl, rfl⟩
      · obtain ⟨i, rfl⟩ := Option.ne_none_iff_exists'.1 hid
        exact ⟨_, rfl, rfl⟩

section Rows

variable (hrow : ∀ x', d.Yields p x' ↔ x = x')

include hrow

theorem eq_none_iff : x = .ok none ↔ d.IsAbsent p := by
  rw [← hrow]
  constructor
  · rintro ⟨habsent⟩
    exact habsent
  · exact .absent

theorem refused_iff (e : Failure) : x = .error e ∧ e.typeName = "OSError" ↔
    ∃ fault, e = .access (.refused fault p) ∧ d.stat p = .error (.refused fault p) ∧
      fault.number ∉ Disk.absentNumbers := by
  constructor
  · rintro ⟨he, htype⟩
    cases (hrow _).2 he with
    | refused hstat hnumber => exact ⟨_, rfl, hstat, hnumber⟩
    | unreadable => simp [Failure.typeName] at htype
  · rintro ⟨fault, rfl, hstat, hnumber⟩
    exact ⟨(hrow _).1 (.refused hstat hnumber), typeName_of_refused hstat hnumber⟩

theorem eq_some_iff (l : License) : x = .ok (some l) ↔ ∃ data c, d.stat p = .ok (.file data) ∧
    Content.ofBytes data = .ok c ∧ c.toLicense = .ok l := by
  rw [← hrow]
  constructor
  · rintro ⟨⟩
    rename_i data c hstat hdata hc
    exact ⟨data, c, hstat, hdata, hc⟩
  · rintro ⟨data, c, hstat, hdata, hc⟩
    exact .licence hstat hdata hc

/-- What is left when the other rows are ruled out. -/
theorem unreadable_iff : x ≠ .ok none ∧ (∀ e, x = .error e → e.typeName ≠ "OSError") ∧
    (∀ l, x ≠ .ok (some l)) ↔
      ∃ e cause, x = .error e ∧ e.TellsOf p cause ∧ d.ReadFails p cause := by
  constructor
  · rintro ⟨hnone, hrefused, hlicence⟩
    cases (hrow x).2 rfl with
    | absent => exact absurd rfl hnone
    | refused hstat hnumber => exact absurd (typeName_of_refused hstat hnumber) (hrefused _ rfl)
    | licence => exact absurd rfl (hlicence _)
    | unreadable hfails => exact ⟨_, _, rfl, hfails.tellsOf, hfails⟩
  · rintro ⟨e, cause, rfl, htells, -⟩
    refine ⟨fun h => (nomatch h), fun e' he => ?_, fun l h => (nomatch h)⟩
    cases he
    rw [htells.typeName]
    decide

end Rows

/-- A retrieval leaves the files as they are and ends in one of these ways. The reference cannot be
resolved just if it is opaque; it is of the wrong kind just if it has room for many licences and no
identifier is given, or for a single one and there is an identifier. Otherwise it leads to a path:
there is nothing just if the path counts as leading to nothing, the file system refuses just for
another reason, and there is a licence just if the path leads to a file that holds it. All that is
left is a failure to read what the path leads to, which tells of the path and of what lies behind
it. To ask whether the licence is there ends in the same way, but whatever the path leads to will
do. -/
theorem retrieve_ends {w v : Machine}
    (hrun : run (retrieve (m := StateM Machine) r id) w = (x, v)) :
    v.disk = w.disk ∧
    ((∃ e, x = .error e ∧ e.typeName = "UnsupportedReferenceKind") ↔
      ∃ name, r = .opaqueKind name) ∧
    ((∃ e, x = .error e ∧ e.typeName = "WrongStoreKind") ↔
      ∃ p, r = .file p true ∧ id = none ∨ r = .file p false ∧ id ≠ none) ∧
    (∀ p, r.LooksAt id p →
      (x = .ok none ↔ w.disk.IsAbsent p) ∧
      (∀ e, x = .error e ∧ e.typeName = "OSError" ↔ ∃ fault, e = .access (.refused fault p) ∧
        w.disk.stat p = .error (.refused fault p) ∧ fault.number ∉ Disk.absentNumbers) ∧
      (∀ l, x = .ok (some l) ↔ ∃ data c, w.disk.stat p = .ok (.file data) ∧
        Content.ofBytes data = .ok c ∧ c.toLicense = .ok l) ∧
      (x ≠ .ok none ∧ (∀ e, x = .error e → e.typeName ≠ "OSError") ∧ (∀ l, x ≠ .ok (some l)) ↔
        ∃ e cause, x = .error e ∧ e.TellsOf p cause ∧ w.disk.ReadFails p cause)) ∧
    ∀ i, id = some i → ∀ y u, run (contains (m := StateM Machine) r i) w = (y, u) → u = w ∧
      (∀ e, y = .error e ↔ x = .error e ∧
        e.typeName ∈ ["UnsupportedReferenceKind", "WrongStoreKind", "OSError"]) ∧
      (y = .ok false ↔ x = .ok none) ∧
      (y = .ok true ↔ (∃ l, x = .ok (some l)) ∨ ∃ e, x = .error e ∧ e.typeName = "IOFailure") := by
  obtain ⟨hx, hdisk⟩ := run_retrieve r id w
  rw [hrun] at hx hdisk
  simp only at hx hdisk
  obtain ⟨hsort, hwrong⟩ := @retrieve_turned_away w.disk r id
  rw [← hx] at hsort hwrong
  refine ⟨hdisk, hsort, hwrong, fun p hlooks => ?_, ?_⟩
  · have hrow : ∀ x', w.disk.Yields p x' ↔ x = x' := by
      intro x'
      rw [yields_iff hlooks, hx, eq_comm]
    exact ⟨eq_none_iff hrow, refused_iff hrow, eq_some_iff hrow, unreadable_iff hrow⟩
  · rintro i rfl y u hcontains
    rw [run_contains_eq] at hcontains
    cases hcontains
    obtain ⟨herror, hfalse, htrue⟩ := contains_agrees w.disk r i
    rw [← hx] at herror hfalse htrue
    refine ⟨rfl, fun e => ?_, hfalse, htrue⟩
    rw [herror]
    refine and_congr_right fun he => ?_
    exact (typeName_of_retrieve (hx ▸ he)).2.2

/-- A machine with a licence file of a single byte. -/
def spoiledMachine : Machine :=
  ⟨.ofFile (LicenseId.fileName ⟨0⟩) [0], [], {}⟩

/-- The path of that file. -/
def spoiledPath : Path :=
  .child ⟨.root, []⟩ (LicenseId.fileName ⟨0⟩)

theorem stat_spoiledMachine : spoiledMachine.disk.stat spoiledPath = .ok (.file [0]) :=
  Disk.stat_of_read <|
    (Disk.admits_fileName (Disk.locate_root _) Path.hasRoom_root _).read_file (Disk.get?_ofFile _ _)

/-- The byte cannot be decoded, and still counts as a licence that is there. -/
theorem retrieve_ends_spoiledMachine :
    ∃ e v, run (retrieve (m := StateM Machine) (.file ⟨.root, []⟩ true) (some ⟨0⟩)) spoiledMachine
        = (.error e, v) ∧ v.disk = spoiledMachine.disk ∧ e.typeName = "IOFailure" ∧
      e.path? = some spoiledPath ∧ spoiledPath.toText.toList <:+: e.message.toList ∧
      e.cause? = some "LicenseDecodeError" ∧
      run (contains (m := StateM Machine) (.file ⟨.root, []⟩ true) ⟨0⟩) spoiledMachine
        = (.ok true, spoiledMachine) := by
  have hstat := stat_spoiledMachine
  have hbytes : Content.ofBytes [0] = .ok (.binary [0]) := by decide
  have hcontent : (Content.binary [0]).toLicense = .error (.envelope (.truncated 1)) := by decide
  obtain ⟨x, v, hrun⟩ : ∃ x v, run (retrieve (m := StateM Machine) (.file ⟨.root, []⟩ true)
      (some ⟨0⟩)) spoiledMachine = (x, v) := ⟨_, _, rfl⟩
  obtain ⟨y, u, hask⟩ : ∃ y u, run (contains (m := StateM Machine) (.file ⟨.root, []⟩ true) ⟨0⟩)
      spoiledMachine = (y, u) := ⟨_, _, rfl⟩
  obtain ⟨hdisk, -, -, htable, hcontains⟩ := retrieve_ends hrun
  obtain ⟨hnone, hrefused, hlicence, hleft⟩ := htable spoiledPath (.many ⟨.root, []⟩ ⟨0⟩)
  have hthere : x ≠ .ok none := fun h => Disk.not_isAbsent_of_stat hstat (hnone.1 h)
  have hbare : ∀ e, x = .error e → e.typeName ≠ "OSError" := by
    intro e he htype
    obtain ⟨fault, -, hfault, -⟩ := (hrefused e).1 ⟨he, htype⟩
    rw [hstat] at hfault
    cases hfault
  have hno : ∀ l, x ≠ .ok (some l) := by
    intro l h
    obtain ⟨data, c, hdata, hc, hl⟩ := (hlicence l).1 h
    rw [hstat] at hdata
    cases hdata
    rw [hbytes] at hc
    cases hc
    rw [hcontent] at hl
    cases hl
  obtain ⟨e, cause, rfl, htells, hfails⟩ := hleft.1 ⟨hthere, hbare, hno⟩
  have hcause : cause.typeName = "LicenseDecodeError" := by
    rw [readFails_unique hfails (.content hstat hbytes hcontent)]
    rfl
  obtain ⟨rfl, -, -, htrue⟩ := hcontains _ rfl y u hask
  obtain rfl := htrue.2 (.inr ⟨e, rfl, htells.typeName⟩)
  exact ⟨e, v, hrun, hdisk, htells.typeName, htells.path, htells.message,
    htells.behind.trans (congrArg some hcause), hask⟩

end Store

end LicenseDepot
