import LicenseDepot.Proofs.Catalog.Import
import LicenseDepot.Proofs.Files.Change
import LicenseDepot.Proofs.Store.Keeping

/-!
# What operations change

`Call` is everything that can be done with stores and catalogues, with references of all kinds, and
`Call.footprint` is what of the files it may change: nothing, the file that a licence is written to,
what a path names, or a whole directory. An operation that fails changes nothing, and one that does
not fail changes what its footprint allows. Main statement: `perform_effect`.
-/

namespace LicenseDepot

/-- An operation on a store, on an iterator or on a catalogue. -/
inductive Call
  | store (r : Reference) (l : License)
  | retrieve (r : Reference) (id : Option LicenseId)
  | contains (r : Reference) (id : LicenseId)
  | licenses (r : Reference)
  | iterate (r : Reference)
  | hasNext (it : LicenseIterator)
  | next (it : LicenseIterator)
  | drain (it : LicenseIterator)
  | removeNext (it : LicenseIterator)
  | delete (r : Reference) (id : Option LicenseId)
  | install (r : Reference) (l : License)
  | find (r : Reference) (id : Option LicenseId)
  | installed (r : Reference)
  | uninstall (r : Reference) (id : LicenseId)
  | importFile (r : Reference) (source : Path)
  | purge (r : Reference)

namespace Call

/-- What an operation does on a machine, whatever it answers. -/
def perform : Call → ExceptT Failure (StateM Machine) Unit
  | .store r l => Store.store r l
  | .retrieve r id => do
    let _ ← Store.retrieve r id
  | .contains r id => do
    let _ ← Store.contains r id
  | .licenses r => do
    let _ ← Store.licenses r
  | .iterate r => do
    let _ ← Store.iterate (← Store.orFail id (Store.directory r))
  | .hasNext it => do
    let _ ← (it.hasNext Store.readLicense : StateM Machine _)
  | .next it => do
    let (l, _) ← (it.next Store.readLicense : StateM Machine _)
    let _ ← Store.orFail id l
  | .drain it => do
    let _ ← (it.drain Store.readLicense : StateM Machine _)
  | .removeNext it => Store.orFail id it.remove
  | .delete r id => Store.delete r id
  | .install r l => Catalog.install r l
  | .find r id => do
    let _ ← Catalog.find r id
  | .installed r => do
    let _ ← Catalog.installed r
  | .uninstall r id => do
    let _ ← Catalog.uninstall r id
  | .importFile r source => do
    let _ ← Catalog.importFile r source
  | .purge r => Catalog.purge r

end Call

/-- What of the files an operation may change. -/
inductive Footprint
  | nothing
  /-- The file that a licence is written to. -/
  | licence (r : Reference) (l : License)
  /-- The file that the licence in another file is written to. -/
  | imported (r : Reference) (source : Path)
  /-- What a path names. -/
  | entry (p : Except Reference.Fault Path)
  /-- What a path names, with all that is in it. -/
  | directory (p : Except Reference.Fault Path)

/-- What of the files an operation may change. -/
def Call.footprint : Call → Footprint
  | .store r l | .install r l => .licence r l
  | .importFile r source => .imported r source
  | .delete r (some id) | .uninstall r id => .entry (r.licensePath id)
  | .delete r none | .purge r => if r.isMulti then .directory r.path else .entry r.path
  | .retrieve .. | .contains .. | .licenses .. | .iterate .. | .hasNext .. | .next .. | .drain ..
  | .removeNext .. | .find .. | .installed .. => .nothing

/-- Whether files are changed as by writing a licence: the sealed bytes of a signed licence, or the
document of a plain one, are in the file that its path leads to through links, which was a file
before or a name that is free in a directory, and everything else is as it was. -/
structure WritesLicense (d d' : Disk) (r : Reference) (l : License) (p : Path) (s : Spot)
    (data : Bytes) : Prop where
  file : Store.fileFor r l = .ok p
  signed : ∀ bytes, l.sealed? = some bytes → data = bytes
  plain : l.kind = .plain → ∃ text, l.document = .ok text ∧ data = Text.Utf8.encode text
  reached : d.locate .writing p = .ok s
  before : ∀ x, d.tree.get? s.location = some x → ∃ old, x = .file old
  parent : d.tree.get? s.location.dropLast = some .directory
  after : d'.tree.get? s.location = some (.file data)
  readable : d'.read p = .ok data
  elsewhere : d.SameExcept d' (· = s.location)

/-- Whether files are changed as by removing what a path names, the link itself if it is one. -/
structure RemovesEntry (d d' : Disk) (p : Path) (l : Location) (n : Node) : Prop where
  named : d.locate .itself p = .ok (.found l n)
  proper : n ≠ .directory
  after : d'.tree.get? l = none
  elsewhere : d.SameExcept d' (· = l)

namespace Footprint

/-- Whether files may have been changed in this way. -/
def Allows (d d' : Disk) : Footprint → Prop
  | .nothing => d' = d
  | .licence r l => ∃ p s data, WritesLicense d d' r l p s data
  | .imported r source =>
    ∃ l, d.licenseAt source = .ok l ∧ ∃ p s data, WritesLicense d d' r l p s data
  | .entry p => d' = d ∨ ∃ q l n, p = .ok q ∧ RemovesEntry d d' q l n
  | .directory p => d' = d ∨ ∃ q l, p = .ok q ∧ d.locate .itself q = .ok (.found l .directory) ∧
      d.SameExcept d' (l <+: ·)

end Footprint

namespace Call

open Machine

variable {w : Machine} {r : Reference} {l : License} {α β : Type}

/-- Writing a licence changes the file that it is written to. -/
theorem exists_of_store {d d' : Disk} (h : d.store r l = .ok d') :
    ∃ p s data, WritesLicense d d' r l p s data := by
  obtain ⟨p, data, hp, hdata, hwrite⟩ := Store.store_eq_ok_iff.1 h
  obtain ⟨s, hreached, hbefore, hparent, hafter, helsewhere⟩ := Disk.write_changes hwrite
  refine ⟨p, s, data, hp, fun bytes hbytes => ?_, fun hkind => ?_, hreached, hbefore, hparent,
    hafter, Disk.read_write hwrite, helsewhere⟩
  · rw [License.fileBytes_of_sealed? hbytes] at hdata
    cases hdata
    rfl
  · cases l with
    | plain t =>
      obtain ⟨text, htext, rfl⟩ := map_eq_ok_iff.1 hdata
      exact ⟨text, htext, rfl⟩
    | signed => cases hkind

/-- Whether an operation leaves the files as they are if it fails, and changes them as is allowed if
it does not. -/
def Changes (act : ExceptT Failure (StateM Machine) α) (w : Machine) (allowed : Disk → Prop) :
    Prop :=
  (∀ e, (run act w).1 = .error e → (run act w).2.disk = w.disk) ∧
    (∀ a, (run act w).1 = .ok a → allowed (run act w).2.disk)

variable {allowed : Disk → Prop} {act : ExceptT Failure (StateM Machine) α}

theorem changes_of_keepsDisk (h : KeepsDisk act.run) (w : Machine) (hnothing : allowed w.disk) :
    Changes act w allowed := by
  have hdisk : (run act w).2.disk = w.disk := h w
  refine ⟨fun _ _ => hdisk, fun _ _ => ?_⟩
  rw [hdisk]
  exact hnothing

/-- What is done after an operation does not count if it neither fails nor changes files. -/
theorem Changes.bind_done {f : α → ExceptT Failure (StateM Machine) β}
    (hact : Changes act w allowed)
    (hf : ∀ a v, ∃ b v', run (f a) v = (.ok b, v') ∧ v'.disk = v.disk) :
    Changes (act >>= f) w allowed := by
  obtain ⟨hfailed, hdone⟩ := hact
  rcases hrun : run act w with ⟨x, v⟩
  rw [hrun] at hfailed hdone
  cases x with
  | error e =>
    rw [Changes, run_bind_error hrun]
    exact ⟨fun _ _ => hfailed e rfl, fun _ h => nomatch h⟩
  | ok a =>
    obtain ⟨b, v', hafter, hdisk⟩ := hf a v
    rw [Changes, run_bind_ok hrun, hafter]
    refine ⟨fun _ h => (nomatch h), fun _ _ => ?_⟩
    rw [hdisk]
    exact hdone a rfl

/-- What is done before an operation does not count if it does not change files. -/
theorem Changes.bind_after {f : α → ExceptT Failure (StateM Machine) β} (hact : KeepsDisk act.run)
    (hf : ∀ a v, v.disk = w.disk → run act w = (.ok a, v) → Changes (f a) v allowed) :
    Changes (act >>= f) w allowed := by
  have hdisk : (run act w).2.disk = w.disk := hact w
  rcases hrun : run act w with ⟨x, v⟩
  rw [hrun] at hdisk
  cases x with
  | error e =>
    rw [Changes, run_bind_error hrun]
    exact ⟨fun _ _ => hdisk, fun _ h => nomatch h⟩
  | ok a =>
    obtain ⟨hfailed, hdone⟩ := hf a v hdisk hrun
    rw [Changes, run_bind_ok hrun]
    exact ⟨fun e he => (hfailed e he).trans hdisk, hdone⟩

theorem changes_store (r : Reference) (l : License) (w : Machine) :
    Changes (Store.store r l) w ((Footprint.licence r l).Allows w.disk) := by
  obtain ⟨hresult, hdisk⟩ := Store.run_store r l w
  rw [Changes, hresult, hdisk]
  cases hstore : w.disk.store r l with
  | error e => exact ⟨fun _ _ => rfl, fun _ h => nomatch h⟩
  | ok d => exact ⟨fun _ h => (nomatch h), fun _ _ => exists_of_store hstore⟩

theorem note_done (message : String) (w : Machine) :
    ∃ w', run (Catalog.note (m := StateM Machine) message) w = (.ok (), w') ∧ w'.disk = w.disk :=
  ⟨_, rfl, rfl⟩

theorem changes_install (r : Reference) (l : License) (w : Machine) :
    Changes (Catalog.install r l) w ((Footprint.licence r l).Allows w.disk) :=
  (changes_store r l w).bind_done fun _ v => ⟨(), note_done _ v⟩

theorem changes_importFile (r : Reference) (source : Path) (w : Machine) :
    Changes (Catalog.importFile r source) w ((Footprint.imported r source).Allows w.disk) := by
  obtain ⟨hresult, hdisk⟩ := Catalog.run_importFile r source w
  rw [Changes, hresult, hdisk]
  cases himport : w.disk.importFile r source with
  | error e => exact ⟨fun _ _ => rfl, fun _ h => nomatch h⟩
  | ok x =>
    obtain ⟨hlicense, hstore⟩ := Catalog.importFile_eq_ok_iff.1 himport
    exact ⟨fun _ h => (nomatch h), fun _ _ => ⟨x.1, hlicense, exists_of_store hstore⟩⟩

/-- Removing a file removes what its path names or nothing. -/
theorem changes_removeFile (p : Path) (w : Machine) :
    Changes (Store.removeFile p) w fun d' =>
      d' = w.disk ∨ ∃ l n, RemovesEntry w.disk d' p l n := by
  rw [Changes, Store.run_removeFile]
  cases hunlink : w.disk.unlink p with
  | ok d =>
    obtain ⟨l, n, hnamed, hproper, hafter, helsewhere⟩ := Disk.unlink_changes hunlink
    exact ⟨fun _ h => (nomatch h), fun _ _ => .inr ⟨l, n, hnamed, hproper, hafter, helsewhere⟩⟩
  | error e =>
    split
    · contradiction
    · exact ⟨fun _ _ => rfl, fun _ h => nomatch h⟩
    · exact ⟨fun _ _ => rfl, fun _ _ => .inl rfl⟩
    · exact ⟨fun _ _ => rfl, fun _ _ => .inl rfl⟩

/-- Removing a store removes a directory with what is in it, or some of it, or nothing. -/
theorem changes_removeAll (p : Path) (w : Machine) :
    Changes (Store.removeAll p) w fun d' => d' = w.disk ∨
      ∃ l, w.disk.locate .itself p = .ok (.found l .directory) ∧
        w.disk.SameExcept d' (l <+: ·) := by
  obtain ⟨hchanges, hnul⟩ := Disk.removeTree_changes w.disk p
  rw [Changes, Store.run_removeAll]
  split
  · rename_i heq
    rw [heq] at hchanges
    exact ⟨fun _ h => (nomatch h), fun _ _ => hchanges⟩
  · rename_i heq
    rw [heq] at hnul
    exact ⟨fun _ _ => hnul rfl, fun _ h => nomatch h⟩
  · rename_i heq
    rw [heq] at hchanges
    exact ⟨fun _ h => (nomatch h), fun _ _ => hchanges⟩

/-- What is done with a path that a reference leads to, or not. -/
theorem changes_orFail {x : Except Reference.Fault Path}
    {f : Path → ExceptT Failure (StateM Machine) β}
    (hf : ∀ p, x = .ok p → Changes (f p) w allowed) :
    Changes (Store.orFail .reference x >>= f) w allowed := by
  apply Changes.bind_after (Store.keepsDisk_orFail _ _)
  intro p v _ hrun
  rw [Store.run_orFail] at hrun
  cases x with
  | error e => cases hrun
  | ok q =>
    cases hrun
    exact hf p rfl

theorem Changes.mono {allowed' : Disk → Prop} (h : Changes act w allowed)
    (hmore : ∀ d, allowed d → allowed' d) : Changes act w allowed' :=
  ⟨h.1, fun a ha => hmore _ (h.2 a ha)⟩

theorem changes_delete_some (r : Reference) (id : LicenseId) (w : Machine) :
    Changes (Store.delete r (some id)) w
      ((Footprint.entry (r.licensePath id)).Allows w.disk) := by
  apply changes_orFail
  intro p hp
  exact (changes_removeFile p w).mono fun d' =>
    Or.imp_right fun ⟨l, n, h⟩ => ⟨p, l, n, hp, h⟩

theorem changes_delete_none (r : Reference) (w : Machine) :
    Changes (Store.delete r none) w ((Call.footprint (.delete r none)).Allows w.disk) := by
  apply changes_orFail
  intro p hp
  rw [footprint]
  cases r.isMulti with
  | true =>
    exact (changes_removeAll p w).mono fun d' => Or.imp_right fun ⟨l, h⟩ => ⟨p, l, hp, h⟩
  | false =>
    exact (changes_removeFile p w).mono fun d' =>
      Or.imp_right fun ⟨l, n, h⟩ => ⟨p, l, n, hp, h⟩

theorem changes_delete (r : Reference) (id : Option LicenseId) (w : Machine) :
    Changes (Store.delete r id) w ((Call.footprint (.delete r id)).Allows w.disk) := by
  cases id with
  | some id => exact changes_delete_some r id w
  | none => exact changes_delete_none r w

theorem changes_uninstall (r : Reference) (id : LicenseId) (w : Machine) :
    Changes (Catalog.uninstall r id) w
      ((Footprint.entry (r.licensePath id)).Allows w.disk) := by
  apply Changes.bind_after (Store.keepsDisk_contains r id)
  intro existed v hdisk _
  rw [← hdisk]
  apply (changes_delete_some r id v).bind_done
  intro _ v'
  cases existed with
  | true => exact ⟨true, _, rfl, rfl⟩
  | false => exact ⟨false, _, rfl, rfl⟩

theorem keepsDisk_retrieve (r : Reference) (id : Option LicenseId) :
    KeepsDisk (Store.retrieve (m := StateM Machine) r id).run :=
  fun w => (Store.run_retrieve r id w).2

/-- An operation that fails leaves all files as they are. One that does not fail changes no more
than its footprint: nothing if it only reads; the one file that its path leads to, and this to the
bytes of the licence, if it writes one; the one entry that its path names if it removes a licence;
the one directory that its path names, with what is in it, if it removes a whole store, however deep
that is (no bound on recursion is modelled, see `Disk.removeTree`). -/
theorem perform_effect (c : Call) (w w' : Machine) :
    (∀ e, run c.perform w = (.error e, w') → w'.disk = w.disk) ∧
      (run c.perform w = (.ok (), w') → c.footprint.Allows w.disk w'.disk) := by
  suffices hchanges : Changes c.perform w (c.footprint.Allows w.disk) by
    constructor
    · intro e hrun
      have hfailed := hchanges.1 e
      rw [hrun] at hfailed
      exact hfailed rfl
    · intro hrun
      have hdone := hchanges.2 ()
      rw [hrun] at hdone
      exact hdone rfl
  have hdone : ∀ {γ : Type} (a : γ) (v : Machine), ∃ b v',
      run (pure () : ExceptT Failure (StateM Machine) Unit) v = (.ok b, v') ∧ v'.disk = v.disk :=
    fun _ v => ⟨(), v, rfl, rfl⟩
  cases c with
  | store r l => exact changes_store r l w
  | retrieve r id =>
    exact changes_of_keepsDisk ((keepsDisk_retrieve r id).run_bind fun _ => keepsDisk_pure _) w rfl
  | contains r id =>
    exact changes_of_keepsDisk
      ((Store.keepsDisk_contains r id).run_bind fun _ => keepsDisk_pure _) w rfl
  | licenses r =>
    exact changes_of_keepsDisk ((Store.keepsDisk_licenses r).run_bind fun _ => keepsDisk_pure _)
      w rfl
  | iterate r =>
    exact changes_of_keepsDisk ((Store.keepsDisk_orFail _ _).run_bind fun p =>
      (Store.keepsDisk_iterate p).run_bind fun _ => keepsDisk_pure _) w rfl
  | hasNext it =>
    exact changes_of_keepsDisk ((Store.keepsDisk_hasNext it).lift.run_bind fun _ =>
      keepsDisk_pure _) w rfl
  | next it =>
    exact changes_of_keepsDisk ((Store.keepsDisk_next it).lift.run_bind fun _ =>
      (Store.keepsDisk_orFail _ _).run_bind fun _ => keepsDisk_pure _) w rfl
  | drain it =>
    exact changes_of_keepsDisk ((Store.keepsDisk_drain it).lift.run_bind fun _ =>
      keepsDisk_pure _) w rfl
  | removeNext it => exact changes_of_keepsDisk (Store.keepsDisk_orFail _ _) w rfl
  | delete r id => exact changes_delete r id w
  | install r l => exact changes_install r l w
  | find r id =>
    exact changes_of_keepsDisk ((keepsDisk_retrieve r id).run_bind fun _ => keepsDisk_pure _) w rfl
  | installed r =>
    exact changes_of_keepsDisk (((Store.keepsDisk_licenses r).run_bind fun _ =>
      (keepsDisk_report _).lift.run_bind fun _ => keepsDisk_pure _).run_bind fun _ =>
        keepsDisk_pure _) w rfl
  | uninstall r id => exact (changes_uninstall r id w).bind_done hdone
  | importFile r source => exact (changes_importFile r source w).bind_done hdone
  | purge r => exact (changes_delete r none w).bind_done fun _ v => ⟨(), note_done _ v⟩

/-- A machine whose root directory holds an empty file and a link to it. -/
def linked : Machine where
  disk :=
    { tree := ⟨[(["kept"], .file []), (["way"], .link "kept")], by decide, by simp [IsClosed]⟩
      here := [] }
  journal := []
  readings := {}

theorem locate_linked :
    linked.disk.locate .writing (.child ⟨.root, []⟩ "way") = .ok (.found ["kept"] (.file [])) := by
  have hkept : linked.disk.tree.get? ([] ++ ["kept"]) = some (.file []) := by decide
  have hway : linked.disk.tree.get? ([] ++ ["way"]) = some (.link "kept") := by decide
  have hsteps : Step.ofPath (.child ⟨.root, []⟩ "way") = [.down "way"] := by decide
  have htarget : Step.ofTarget "kept" = [.down "kept"] := by decide
  have hslash : ¬ (Purpose.writing = .writing ∧ ([] : List Step) = [.slash]) := by decide
  have hlast : linked.disk.tree.Walks .writing 39 [] [.down "kept"] (.found ["kept"] (.file [])) :=
    .down rfl (by decide) hslash hkept (fun _ heq => Node.noConfusion heq) (.arrive hkept)
  refine Disk.locate_eq_ok_iff.2 ⟨by decide, ?_⟩
  rw [hsteps]
  refine .follow rfl (by decide) hslash hway (by decide) ?_
  rw [htarget]
  exact hlast

/-- Writing a licence along a link changes the file that the link leads to, and not the link. -/
theorem perform_effect_linked :
    ∃ (l : License) (w' : Machine) (data : Bytes),
      run (Call.store (.file (.child ⟨.root, []⟩ "way") false) l).perform linked = (.ok (), w') ∧
      l.fileBytes = .ok data ∧ w'.disk.tree.get? ["kept"] = some (.file data) ∧
      w'.disk.tree.get? ["way"] = some (.link "kept") := by
  obtain ⟨text, htext⟩ := Content.document_awkwardTerms
  have hdata : (License.plain Content.awkwardTerms).fileBytes = .ok (Text.Utf8.encode text) :=
    map_eq_ok_iff.2 ⟨text, htext, rfl⟩
  have hwrite : linked.disk.write (.child ⟨.root, []⟩ "way") (Text.Utf8.encode text)
      = .ok { linked.disk with
        tree := linked.disk.tree.put [] "kept" (.file (Text.Utf8.encode text)) } := by
    rw [Disk.write, locate_linked]
    rfl
  have hstore := Store.store_eq_ok_iff (r := .file (.child ⟨.root, []⟩ "way") false) |>.2
    ⟨_, _, rfl, hdata, hwrite⟩
  have hresult := (Store.run_store (.file (.child ⟨.root, []⟩ "way") false)
    (.plain Content.awkwardTerms) linked).1
  rw [hstore] at hresult
  obtain ⟨p, s, data, h⟩ := (perform_effect
    (.store (.file (.child ⟨.root, []⟩ "way") false) (.plain Content.awkwardTerms)) linked
    _).2 (Prod.ext hresult rfl)
  have hp : Path.child ⟨.root, []⟩ "way" = p := Except.ok.inj h.file
  have hs : Spot.found ["kept"] (.file []) = s := by
    have hreached := h.reached
    rw [← hp, locate_linked] at hreached
    exact Except.ok.inj hreached
  obtain ⟨text', htext', hdata'⟩ := h.plain rfl
  have hother := h.elsewhere.get? ["way"]
  rw [← hs] at hother
  refine ⟨_, _, data, Prod.ext hresult rfl, ?_, ?_, ?_⟩
  · rw [hdata']
    exact map_eq_ok_iff.2 ⟨text', htext', rfl⟩
  · have hafter := h.after
    rw [← hs] at hafter
    exact hafter
  · exact hother (by decide)

end Call

end LicenseDepot
