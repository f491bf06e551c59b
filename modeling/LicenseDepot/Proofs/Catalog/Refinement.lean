import LicenseDepot.Proofs.Catalog.Operation

/-!
# A catalogue is a finite map

A store whose directory was empty and is only used through the catalogue answers every sequence of
operations as a finite map of licences does. `Represents` is what all operations keep: each licence
of the map is in its file and reads back from it, no other name in the directory is taken, and
everything outside of it is as it was. Main statement: `follows_map`.
-/

namespace LicenseDepot

open Machine LicenseDocument

variable {d₀ d : Disk} {directory : Path} {l : Location} {m : LicenseMap} {k : License}
  {id : LicenseId} {source : Path}

/-- Whether a path leads to a directory in which there is nothing yet, with room for licence
files. -/
structure FreshStore (d : Disk) (directory : Path) (l : Location) : Prop where
  found : d.locate .target directory = .ok (.found l .directory)
  empty : d.tree.names l = []
  room : directory.HasRoom

/-- Whether a location is below another one. -/
def Below (l q : Location) : Prop :=
  l <+: q ∧ l ≠ q

/-- Whether the walk along a path neither begins nor ends below a location. -/
structure LeadsOutside (d : Disk) (l : Location) (p : Path) : Prop where
  start : ¬ Below l (d.start p)
  spot : ∀ s, d.locate .target p = .ok s → ¬ Below l s.location

/-- The licences that are installed: plain ones, converted ones, and ones that were sealed. Sealing
gives a licence only if the header of the envelope has room for both lengths. -/
inductive Genuine : License → Prop
  | plain (t : Terms) : Genuine (.plain t)
  | sealed {l k : License} {signature : Bytes} (h : l.withSignature signature = .ok k)
      (hfits : ∀ e, l.envelope signature = .ok e → e.fits = true) : Genuine k
  | converted {c : Content} {l : License} (h : c.toLicense = .ok l) : Genuine l

theorem Genuine.readsBack (h : Genuine k) : k.ReadsBack := by
  cases h with
  | plain t => exact License.readsBack_plain t
  | sealed h hfits => exact License.readsBack_of_withSignature hfits h
  | converted h => exact License.readsBack_of_toLicense h

/-- What the files of a machine have to do with a map, where the directory at `l` was empty among
the files `d₀`. -/
structure Represents (d₀ : Disk) (l : Location) (m : LicenseMap) (d : Disk) : Prop where
  here : d.here = d₀.here
  outside : ∀ q, (∀ id : LicenseId, q ≠ l ++ [id.fileName]) → d.tree.get? q = d₀.tree.get? q
  kept : ∀ id k, m.get? id = some k → k.ReadsBack ∧
    ∃ data, k.fileBytes = .ok data ∧ d.tree.get? (l ++ [id.fileName]) = some (.file data)
  free : ∀ id, m.get? id = none → d.tree.get? (l ++ [id.fileName]) = none

namespace FreshStore

theorem get?_child (h : FreshStore d₀ directory l) (name : String) :
    d₀.tree.get? (l ++ [name]) = none := by
  rw [Option.eq_none_iff_forall_ne_some]
  intro x hx
  have hname := FileTree.mem_names_iff.2 ⟨x, hx⟩
  rw [h.empty] at hname
  cases hname

theorem get?_directory (h : FreshStore d₀ directory l) : d₀.tree.get? l = some .directory :=
  (Disk.locate_eq_ok_iff.1 h.found).2.get?

/-- There is nothing below an empty directory, however far. -/
theorem get?_below (h : FreshStore d₀ directory l) {q : Location} (hq : Below l q) :
    d₀.tree.get? q = none := by
  obtain ⟨⟨rest, rfl⟩, hne⟩ := hq
  cases rest with
  | nil => simp at hne
  | cons name rest =>
    rw [Option.eq_none_iff_forall_ne_some]
    intro x hx
    have hsplit : l ++ name :: rest = (l ++ [name]) ++ rest := by simp
    by_cases hrest : rest = []
    · subst hrest
      rw [h.get?_child] at hx
      cases hx
    · have hparent := FileTree.get?_of_isPrefix hx ⟨rest, hsplit.symm⟩ (by simpa using hrest)
      rw [h.get?_child] at hparent
      cases hparent

theorem represents (h : FreshStore d₀ directory l) : Represents d₀ l .empty d₀ where
  here := rfl
  outside _ _ := rfl
  kept id k hk := by cases hk
  free id _ := h.get?_child _

end FreshStore

theorem below_file (l : Location) (name : String) : Below l (l ++ [name]) :=
  ⟨List.prefix_append _ _, by simp⟩

namespace Represents

/-- Nothing that was there has gone. -/
theorem more (h : Represents d₀ l m d) (hfresh : FreshStore d₀ directory l) (q : Location)
    (x : Node) (hx : d₀.tree.get? q = some x) : d.tree.get? q = some x := by
  rw [h.outside q, hx]
  rintro id rfl
  rw [hfresh.get?_child] at hx
  cases hx

/-- Whatever is new is a file. -/
theorem added (h : Represents d₀ l m d) (q : Location) (x : Node) (hx : d.tree.get? q = some x) :
    d₀.tree.get? q = some x ∨ ∃ content, x = .file content := by
  by_cases hq : ∃ id : LicenseId, q = l ++ [id.fileName]
  · obtain ⟨id, rfl⟩ := hq
    cases hk : m.get? id with
    | none =>
      rw [h.free id hk] at hx
      cases hx
    | some k =>
      obtain ⟨-, data, -, hfile⟩ := h.kept id k hk
      rw [hfile] at hx
      cases hx
      exact .inr ⟨data, rfl⟩
  · rw [h.outside q fun id heq => hq ⟨id, heq⟩] at hx
    exact .inl hx

/-- The directory is where it was. -/
theorem locate_directory (h : Represents d₀ l m d) (hfresh : FreshStore d₀ directory l) :
    d.locate .target directory = .ok (.found l .directory) := by
  have hdisk : d = { d₀ with tree := d.tree } := by
    rw [← h.here]
  rw [hdisk]
  exact Disk.locate_of_more (h.more hfresh) hfresh.found

theorem admits (h : Represents d₀ l m d) (hfresh : FreshStore d₀ directory l) (id : LicenseId) :
    d.Admits directory l id.fileName :=
  Disk.admits_fileName (h.locate_directory hfresh) hfresh.room id

theorem get?_directory (h : Represents d₀ l m d) (hfresh : FreshStore d₀ directory l) :
    d.tree.get? l = some .directory :=
  h.more hfresh l _ hfresh.get?_directory

/-- There is at most a file under the name of a licence. -/
theorem file (h : Represents d₀ l m d) (id : LicenseId) (x : Node)
    (hx : d.tree.get? (l ++ [id.fileName]) = some x) : ∃ content, x = .file content := by
  cases hk : m.get? id with
  | none =>
    rw [h.free id hk] at hx
    cases hx
  | some k =>
    obtain ⟨-, data, -, hfile⟩ := h.kept id k hk
    rw [hfile] at hx
    cases hx
    exact ⟨data, rfl⟩

theorem fileName_ne {id id' : LicenseId} (hne : id' ≠ id) :
    l ++ [id'.fileName] ≠ l ++ [id.fileName] := by
  intro heq
  refine hne (LicenseId.fileName_inj ?_)
  simpa using heq

/-- Writing the file of a licence puts it into the map. -/
theorem put (h : Represents d₀ l m d) (hfresh : FreshStore d₀ directory l) (hback : k.ReadsBack)
    {data : Bytes} (hdata : k.fileBytes = .ok data) :
    Represents d₀ l (m.put k) { d with tree := d.tree.put l k.id.fileName (.file data) } := by
  have hput := FileTree.get?_put (n := .file data)
    (FileTree.isDirectory_iff.2 (h.get?_directory hfresh))
    (FileTree.isDirectory_eq_false (h.file k.id))
  constructor
  · exact h.here
  · intro q hq
    rw [hput, if_neg (hq k.id), h.outside q hq]
  · intro id k' hk'
    rw [LicenseMap.get?_put] at hk'
    split at hk'
    · rename_i hid
      cases hk'
      refine ⟨hback, data, hdata, ?_⟩
      rw [hput, hid, if_pos rfl]
    · rename_i hid
      rw [hput, if_neg (fileName_ne hid)]
      exact h.kept id k' hk'
  · intro id hid
    rw [LicenseMap.get?_put] at hid
    split at hid
    · cases hid
    · rename_i hne
      rw [hput, if_neg (fileName_ne hne)]
      exact h.free id hid

/-- Removing the file of a licence removes it from the map. -/
theorem prune (h : Represents d₀ l m d) (hfresh : FreshStore d₀ directory l) (id : LicenseId) :
    Represents d₀ l (m.remove id) { d with tree := d.tree.prune (l ++ [id.fileName]) } := by
  have hprune := FileTree.get?_prune (t := d.tree) (l := l ++ [id.fileName]) (by simp)
  -- A file has nothing below it, so no other licence file goes with it.
  have hother : ∀ {id' : LicenseId}, id' ≠ id → ¬ (l ++ [id.fileName] <+: l ++ [id'.fileName]) := by
    intro id' hne hpre
    exact fileName_ne hne (hpre.eq_of_length (by simp)).symm
  constructor
  · exact h.here
  · intro q hq
    rw [hprune]
    split
    · rename_i hpre
      have hbelow : Below l q := by
        refine ⟨(List.prefix_append _ _).trans hpre, ?_⟩
        rintro rfl
        exact absurd hpre.length_le (by simp)
      rw [hfresh.get?_below hbelow]
    · exact h.outside q hq
  · intro id' k' hk'
    rw [LicenseMap.get?_remove] at hk'
    split at hk'
    · cases hk'
    · rename_i hne
      rw [hprune, if_neg (hother hne)]
      exact h.kept id' k' hk'
  · intro id' hid'
    rw [hprune]
    rw [LicenseMap.get?_remove] at hid'
    split
    · rfl
    · rename_i hpre
      split at hid'
      · rename_i heq
        rw [heq] at hpre
        exact absurd (List.prefix_refl _) hpre
      · exact h.free id' hid'

/-- Removing a licence that is not there changes nothing. -/
theorem remove_of_none (h : Represents d₀ l m d) (hid : m.get? id = none) :
    Represents d₀ l (m.remove id) d := by
  have hsame : ∀ id', (m.remove id).get? id' = m.get? id' := by
    intro id'
    rw [LicenseMap.get?_remove]
    split
    · rename_i heq
      rw [heq, hid]
    · rfl
  constructor
  · exact h.here
  · exact h.outside
  · intro id' k' hk'
    exact h.kept id' k' (hsame id' ▸ hk')
  · intro id' hid'
    exact h.free id' (hsame id' ▸ hid')

/-! What is read. -/

theorem licenseAt (h : Represents d₀ l m d) (hfresh : FreshStore d₀ directory l)
    (hk : m.get? id = some k) : d.licenseAt (directory.child id.fileName) = .ok k.asRead := by
  obtain ⟨hback, data, hdata, hfile⟩ := h.kept id k hk
  rw [Disk.licenseAt, (h.admits hfresh id).read_file hfile]
  exact hback data hdata

/-- What is found under an identifier is what the map has there, as it is read. -/
theorem retrieve (h : Represents d₀ l m d) (hfresh : FreshStore d₀ directory l) (id : LicenseId) :
    d.retrieve (.file directory true) (some id) = .ok ((m.get? id).map License.asRead) := by
  have hfile : (Reference.file directory true).fileOf (some id)
      = .ok (directory.child id.fileName) := rfl
  cases hk : m.get? id with
  | none =>
    simp only [Disk.retrieve, hfile, (h.admits hfresh id).holds_vacant (h.free id hk),
      Option.map_none]
  | some k =>
    obtain ⟨-, data, -, hdata⟩ := h.kept id k hk
    have hread := (h.admits hfresh id).read_file hdata
    simp only [Disk.retrieve, hfile, Disk.holds_of_read hread, h.licenseAt hfresh hk,
      Option.map_some]

/-- The directory lists the files of the licences, in the order of these. -/
theorem list (h : Represents d₀ l m d) (hfresh : FreshStore d₀ directory l) :
    d.list directory = .ok (m.licenses.map fun k => k.id.fileName) := by
  have hsorted : (m.licenses.map fun k => k.id.fileName).Pairwise (· < ·) :=
    List.pairwise_map.2 (m.sorted.imp LicenseId.fileName_lt)
  refine Disk.list_of_perm (h.locate_directory hfresh) ?_ hsorted
  apply (List.perm_ext_iff_of_nodup (d.tree.nodup_names l) (hsorted.imp ne_of_lt)).2
  intro name
  rw [FileTree.mem_names_iff, List.mem_map]
  constructor
  · rintro ⟨x, hx⟩
    by_cases hname : ∃ id : LicenseId, name = id.fileName
    · obtain ⟨id, rfl⟩ := hname
      cases hk : m.get? id with
      | none =>
        rw [h.free id hk] at hx
        cases hx
      | some k =>
        obtain ⟨hmem, rfl⟩ := LicenseMap.get?_eq_some_iff.1 hk
        exact ⟨k, hmem, rfl⟩
    · rw [h.outside _ fun id heq => hname ⟨id, by simpa using heq⟩, hfresh.get?_child] at hx
      cases hx
  · rintro ⟨k, hmem, rfl⟩
    obtain ⟨-, data, -, hfile⟩ := h.kept k.id k (LicenseMap.get?_eq_some_iff.2 ⟨hmem, rfl⟩)
    exact ⟨_, hfile⟩

/-- All files of licences are read, each as its licence is read. -/
theorem readable (h : Represents d₀ l m d) (hfresh : FreshStore d₀ directory l) :
    Store.readable d (Store.filesAmong directory (m.licenses.map fun k => k.id.fileName))
        = m.licenses.map License.asRead ∧
      Store.warnings d (Store.filesAmong directory (m.licenses.map fun k => k.id.fileName))
        = [] := by
  rw [Store.filesAmong_fileNames]
  exact Store.readable_map fun k hk =>
    h.licenseAt hfresh (LicenseMap.get?_eq_some_iff.2 ⟨hk, rfl⟩)

/-- A file outside of the directory holds what it held before. -/
theorem read_outside (h : Represents d₀ l m d) (hfresh : FreshStore d₀ directory l)
    (houtside : LeadsOutside d₀ l source) {data : Bytes} :
    d.read source = .ok data ↔ d₀.read source = .ok data := by
  have hdisk : d = { d₀ with tree := d.tree } := by
    rw [← h.here]
  rw [Disk.read_eq_ok_iff, Disk.read_eq_ok_iff]
  constructor
  · rintro ⟨q, hlocate⟩
    obtain ⟨hcheck, hwalk⟩ := Disk.locate_eq_ok_iff.1 hlocate
    have hstart : d.start source = d₀.start source := by
      rw [Disk.start, Disk.start, h.here]
    rw [hstart] at hwalk
    have hbegin : ∀ x, d.tree.get? (d₀.start source) = some x →
        d₀.tree.get? (d₀.start source) = some x := by
      intro x hx
      rw [← h.outside, hx]
      intro id heq
      exact houtside.start (heq ▸ below_file l _)
    rcases hwalk.of_added (h.more hfresh) h.added hbegin with
      hold | ⟨parent, name, content, hold, heq⟩
    · exact ⟨q, Disk.locate_eq_ok_iff.2 ⟨hcheck, hold⟩⟩
    · -- The walk would end at a new file, and these are all in the directory.
      exfalso
      cases heq
      have hnew := hwalk.get?
      have hold := Disk.locate_eq_ok_iff.2 ⟨hcheck, hold⟩
      by_cases hname : ∃ id : LicenseId, parent ++ [name] = l ++ [id.fileName]
      · obtain ⟨id, hid⟩ := hname
        apply houtside.spot _ hold
        rw [Spot.location, hid]
        exact below_file l _
      · have hfree := (Disk.locate_eq_ok_iff.1 hold).2.vacant_get?.2
        rw [h.outside _ fun id heq => hname ⟨id, heq⟩, hfree] at hnew
        cases hnew
  · rintro ⟨q, hlocate⟩
    rw [hdisk]
    exact ⟨q, Disk.locate_of_more (h.more hfresh) hlocate⟩

/-- What is read outside of the directory is what was read there before. -/
theorem licenseAt_outside (h : Represents d₀ l m d) (hfresh : FreshStore d₀ directory l)
    (houtside : LeadsOutside d₀ l source) :
    (d.licenseAt source).toOption = (d₀.licenseAt source).toOption := by
  apply Option.ext
  intro k
  rw [toOption_eq_some_iff, toOption_eq_some_iff, Store.licenseAt_eq_ok_iff,
    Store.licenseAt_eq_ok_iff]
  simp only [h.read_outside hfresh houtside]

/-! One operation. -/

/-- A licence that reads back is installed if it has a file, and else nothing happens. -/
theorem install (h : Represents d₀ l m d) (hfresh : FreshStore d₀ directory l) (hback : k.ReadsBack)
    (answer : Answer) :
    ((d.store (.file directory true) k).map fun _ => answer).toOption = (m.install k answer).1 ∧
      Represents d₀ l (m.install k answer).2 ((d.store (.file directory true) k).toOption.getD d) ∧
      ((m.install k answer).1 = none →
        (d.store (.file directory true) k).toOption.getD d = d) := by
  cases hdata : k.fileBytes with
  | error e =>
    have hmap : m.install k answer = (none, m) := by
      rw [LicenseMap.install, hdata]
      rfl
    cases hstore : d.store (.file directory true) k with
    | error e' =>
      rw [hmap]
      exact ⟨rfl, h, fun _ => rfl⟩
    | ok d' =>
      obtain ⟨p, data, -, hbytes, -⟩ := Store.store_eq_ok_iff.1 hstore
      rw [hdata] at hbytes
      cases hbytes
  | ok data =>
    have hmap : m.install k answer = (some answer, m.put k) := by
      rw [LicenseMap.install, hdata]
      rfl
    have hwrite := (h.admits hfresh k.id).write_child (h.file k.id) data
    have hstore : d.store (.file directory true) k
        = .ok { d with tree := d.tree.put l k.id.fileName (.file data) } :=
      Store.store_eq_ok_iff.2 ⟨_, data, rfl, hdata, hwrite⟩
    rw [hmap, hstore]
    exact ⟨rfl, h.put hfresh hback hdata, fun hnone => by cases hnone⟩

end Represents

/-- Whether an operation is one that a store is used with: what is installed is genuine, and what is
imported comes from elsewhere. -/
def Operation.Admissible (d : Disk) (l : Location) : Operation → Prop
  | .install k => Genuine k
  | .importFile source => LeadsOutside d l source
  | _ => True

/-- The licences in files elsewhere. -/
def Disk.sources (d : Disk) (source : Path) : Option License :=
  (d.licenseAt source).toOption

/-- The expiry date of a licence in a file elsewhere is not lost, since it has been read. -/
theorem not_losesExpiration_of_sources (h : d.sources source = some k) :
    ¬ LosesExpiration k.terms := by
  obtain ⟨data, -, hdata⟩ := Store.licenseAt_eq_ok_iff.1 (toOption_eq_some_iff.1 h)
  exact not_losesExpiration_of_termsAsRead
    (License.asRead_eq_self_iff.1 (License.asRead_of_ofFileBytes hdata))

/-- Whether an operation answers as on the map, and leaves files that represent the map after it. -/
def Simulated (d₀ : Disk) (directory : Path) (l : Location) (w : Machine) (m : LicenseMap)
    (op : Operation) : Prop :=
  Agrees (.file directory true) d₀.sources w m op ∧
    Represents d₀ l (m.step d₀.sources op).2 (run (op.perform (.file directory true)) w).2.disk

/-- An operation other than a listing is simulated if its result is that of the map, with the
licences as they are read, and what it leaves represents the map after it. -/
theorem simulated_of_run {w : Machine} {op : Operation} {x : Except Failure Answer}
    (hrun : (run (op.perform (.file directory true)) w).1 = x ∧
      (run (op.perform (.file directory true)) w).2.disk = d)
    (hlisting : op ≠ .installed)
    (hanswer : x.toOption = (m.step d₀.sources op).1.map Answer.asRead)
    (hfailed : (m.step d₀.sources op).1 = none → d = w.disk)
    (hafter : Represents d₀ l (m.step d₀.sources op).2 d) : Simulated d₀ directory l w m op := by
  obtain ⟨rfl, rfl⟩ := hrun
  exact ⟨.of_answer hanswer hfailed fun heq => absurd heq hlisting, hafter⟩

section Steps

variable {w : Machine} (h : Represents d₀ l m w.disk) (hfresh : FreshStore d₀ directory l)

include h hfresh

theorem simulated_install (hback : k.ReadsBack) : Simulated d₀ directory l w m (.install k) := by
  obtain ⟨hanswer, hafter, hfailed⟩ := h.install hfresh hback .done
  have hread : Answer.done.asRead = .done := rfl
  rw [← LicenseMap.map_install m k hread] at hanswer
  exact simulated_of_run (Operation.run_perform_install _ k w) nofun hanswer hfailed hafter

theorem simulated_importFile (houtside : LeadsOutside d₀ l source) :
    Simulated d₀ directory l w m (.importFile source) := by
  have hrun := Operation.run_perform_importFile (.file directory true) source w
  have hsource := h.licenseAt_outside hfresh houtside
  cases hlicense : w.disk.licenseAt source with
  | error e =>
    have himport : w.disk.importFile (.file directory true) source
        = .error (.notImported source e) := by
      rw [Disk.importFile, hlicense]
    have hmap : m.step d₀.sources (.importFile source) = (none, m) := by
      rw [LicenseMap.step, Disk.sources, ← hsource, hlicense]
      rfl
    rw [himport] at hrun
    apply simulated_of_run hrun nofun
    · rw [hmap]
      rfl
    · intro _
      rfl
    · rw [hmap]
      exact h
  | ok k =>
    obtain ⟨data, -, hdata⟩ := Store.licenseAt_eq_ok_iff.1 hlicense
    have hback := License.readsBack_of_ofFileBytes hdata
    have hread : (Answer.imported k).asRead = .imported k :=
      congrArg Answer.imported (License.asRead_of_ofFileBytes hdata)
    have himport : w.disk.importFile (.file directory true) source
        = (w.disk.store (.file directory true) k).map (Prod.mk k) := by
      rw [Disk.importFile, hlicense]
    have hmap : m.step d₀.sources (.importFile source) = m.install k (.imported k) := by
      rw [LicenseMap.step, Disk.sources, ← hsource, hlicense]
      rfl
    obtain ⟨hanswer, hafter, hfailed⟩ := h.install hfresh hback (.imported k)
    have hresult := Functor.map_map (Prod.mk k) (fun x => Answer.imported x.1)
      (w.disk.store (.file directory true) k)
    have hdisk := (Functor.map_map (Prod.mk k) Prod.snd
      (w.disk.store (.file directory true) k)).trans (id_map' _)
    rw [himport] at hrun
    have hrun := And.intro (hrun.1.trans hresult)
      (hrun.2.trans (congrArg (fun x => x.toOption.getD w.disk) hdisk))
    rw [← LicenseMap.map_install m k hread, ← hmap] at hanswer
    rw [← hmap] at hafter hfailed
    exact simulated_of_run hrun nofun hanswer hfailed hafter

theorem simulated_uninstall (id : LicenseId) : Simulated d₀ directory l w m (.uninstall id) := by
  have hadmits := h.admits hfresh id
  cases hk : m.get? id with
  | none =>
    have hfree := h.free id hk
    have hrun := Operation.run_perform_uninstall (hadmits.holds_vacant hfree)
      (Operation.run_removeFile_of_missing (hadmits.unlink_vacant hfree))
    apply simulated_of_run hrun nofun
    · rw [LicenseMap.step, hk]
      rfl
    · intro _
      rfl
    · exact h.remove_of_none hk
  | some k =>
    obtain ⟨-, data, -, hfile⟩ := h.kept id k hk
    have hrun := Operation.run_perform_uninstall
      (Disk.holds_of_read (hadmits.read_file hfile))
      (Operation.run_removeFile_of_ok (hadmits.unlink_file hfile))
    apply simulated_of_run hrun nofun
    · rw [LicenseMap.step, hk]
      rfl
    · rintro ⟨⟩
    · exact h.prune hfresh id

theorem simulated_find (id : LicenseId) : Simulated d₀ directory l w m (.find id) := by
  apply simulated_of_run (Operation.run_perform_find _ id w) nofun
  · rw [h.retrieve hfresh id]
    rfl
  · intro _
    rfl
  · exact h

theorem simulated_installed : Simulated d₀ directory l w m .installed := by
  obtain ⟨message, hrun⟩ := Operation.run_perform_installed (h.list hfresh)
  obtain ⟨hreadable, hwarnings⟩ := h.readable hfresh
  rw [hreadable, hwarnings] at hrun
  refine ⟨.of_answer ?_ ?_ ?_, ?_⟩
  · rw [hrun]
    rfl
  · rintro ⟨⟩
  · intro _
    use message
    rw [hrun]
    simp [noting, Machine.reporting]
  · rw [hrun]
    exact h

theorem simulated {op : Operation} (hop : op.Admissible d₀ l) :
    Simulated d₀ directory l w m op := by
  cases op with
  | install k => exact simulated_install h hfresh hop.readsBack
  | importFile source => exact simulated_importFile h hfresh hop
  | uninstall id => exact simulated_uninstall h hfresh id
  | find id => exact simulated_find h hfresh id
  | installed => exact simulated_installed h hfresh

/-- Files that represent a map answer every sequence of operations as the map does. -/
theorem follows_of_represents {ops : List Operation} (hops : ∀ op ∈ ops, op.Admissible d₀ l) :
    Follows (.file directory true) d₀.sources w m ops := by
  induction ops generalizing w m with
  | nil => trivial
  | cons op ops ih =>
    obtain ⟨hagrees, hafter⟩ := simulated h hfresh (hops op List.mem_cons_self)
    exact ⟨hagrees, ih hafter fun op' hop' => hops op' (List.mem_cons_of_mem op hop')⟩

end Steps

/-- A store of many licences whose directory was empty, and is used only through the catalogue,
answers every sequence of operations as a finite map of licences does. The licences it gives are
those of the map as they are read, which are the same but where an expiry date is lost; one that was
imported is never lost. -/
theorem follows_map (w : Machine) (hfresh : FreshStore w.disk directory l) (ops : List Operation)
    (hops : ∀ op ∈ ops, op.Admissible w.disk l) :
    Follows (.file directory true) w.disk.sources w .empty ops ∧
      ∀ source k, w.disk.sources source = some k → ¬ LosesExpiration k.terms :=
  ⟨follows_of_represents hfresh.represents hfresh hops, fun _ _ => not_losesExpiration_of_sources⟩

/-- A machine with an empty directory for licences and a file to be imported that holds none. -/
def shop : Machine where
  disk :=
    { tree :=
        { entries := [(["store"], .directory), (["in"], .file [])]
          nodup := by decide
          closed := by
            intro e he
            rcases List.mem_pair.1 he with rfl | rfl
            · exact ⟨[], "store", rfl, .inl rfl⟩
            · exact ⟨[], "in", rfl, .inl rfl⟩ }
      here := [] }
  journal := []
  readings := {}

theorem freshStore_shop : FreshStore shop.disk ⟨.root, ["store"]⟩ ["store"] where
  found := by
    refine Disk.locate_eq_ok_iff.2 ⟨by decide, ?_⟩
    exact .down rfl (by decide) (by decide) rfl (fun _ heq => Node.noConfusion heq) (.arrive rfl)
  empty := by decide
  room := by
    intro id
    have htext : (Path.child ⟨.root, ["store"]⟩ id.fileName).toText.toList
        = "/store/".toList ++ id.fileName.toList := by
      simp [Path.toText, Path.child, Path.Anchor.text]
    have hname : (Text.Utf8.encode id.fileName.toList).length = 44 :=
      LicenseId.byteLength_fileName id
    rw [Path.byteLength, htext, Text.Utf8.encode_append, List.length_append, hname]
    decide

theorem leadsOutside_shop : LeadsOutside shop.disk ["store"] ⟨.root, ["in"]⟩ := by
  have hlocate : shop.disk.locate .target ⟨.root, ["in"]⟩ = .ok (.found ["in"] (.file [])) := by
    refine Disk.locate_eq_ok_iff.2 ⟨by decide, ?_⟩
    exact .down rfl (by decide) (by decide) rfl (fun _ heq => Node.noConfusion heq) (.arrive rfl)
  refine ⟨fun h => absurd h.1 (by decide), fun s hs h => ?_⟩
  rw [hlocate] at hs
  cases hs
  exact absurd h.1 (by decide)

/-- Terms without an expiry date. -/
def lastingTerms : Terms :=
  { Content.awkwardTerms with expiration := none }

theorem follows_map_shop :
    Follows (.file ⟨.root, ["store"]⟩ true) shop.disk.sources shop .empty
      [.install (.plain lastingTerms), .importFile ⟨.root, ["in"]⟩, .find lastingTerms.id,
        .uninstall lastingTerms.id, .installed] ∧ ¬ LosesExpiration lastingTerms := by
  refine ⟨(follows_map shop freshStore_shop _ ?_).1, by decide⟩
  simp only [List.forall_mem_cons, Operation.Admissible, List.not_mem_nil, false_implies,
    implies_true, and_true]
  exact ⟨.plain _, leadsOutside_shop⟩

/-- What is found of a licence that expires at a time that comes twice is not the same licence,
though its offset is two hours. -/
theorem find_not_same_repeatedTerms :
    FreshStore shop.disk ⟨.root, ["store"]⟩ ["store"] ∧ Genuine (.plain Content.repeatedTerms) ∧
    (∀ e ∈ Content.repeatedTerms.expiration, ¬ e.IsSubSecond) ∧
    ∃ w k,
      run ((Operation.install (.plain Content.repeatedTerms)).perform
        (.file ⟨.root, ["store"]⟩ true)) shop = (.ok .done, w) ∧
      (run ((Operation.find Content.repeatedTerms.id).perform
        (.file ⟨.root, ["store"]⟩ true)) w).1 = .ok (.found (some k)) ∧
      k.same (.plain Content.repeatedTerms) = false := by
  obtain ⟨s, hs⟩ := Content.document_repeatedTerms
  have hdata : (License.plain Content.repeatedTerms).fileBytes = .ok (Text.Utf8.encode s) :=
    map_eq_ok_iff.2 ⟨s, hs, rfl⟩
  have hempty := freshStore_shop.represents
  have hwrite := (hempty.admits freshStore_shop Content.repeatedTerms.id).write_child
    (hempty.file Content.repeatedTerms.id) (Text.Utf8.encode s)
  have hstore := (Store.store_eq_ok_iff (r := .file ⟨.root, ["store"]⟩ true)).2
    ⟨_, _, rfl, hdata, hwrite⟩
  obtain ⟨w, hinstall, hfind⟩ :=
    Operation.exists_find_of_install (License.readsBack_plain _) hstore
  refine ⟨freshStore_shop, .plain _, by decide, w, _, hinstall, hfind, ?_⟩
  rw [Bool.eq_false_iff]
  exact fun hsame => (License.same_asRead_iff _).1 hsame (by decide)

end LicenseDepot
