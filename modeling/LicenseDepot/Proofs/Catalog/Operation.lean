import LicenseDepot.Proofs.Catalog.Import
import LicenseDepot.Proofs.Catalog.LicenseMap

/-!
# Operations of a catalogue and of a map

What a user does with a store of many licences, what it answers, and what it would do to a finite
map of licences and answer there. A map holds the licences that were installed, and a machine gives
those that are read from their files: these are the same, unless an expiry date is lost.
`Follows` says that a machine answers as a map does, operation after operation.
-/

namespace LicenseDepot

/-- An operation on a store with room for many licences. -/
inductive Operation
  | install (l : License)
  | importFile (source : Path)
  | uninstall (id : LicenseId)
  | find (id : LicenseId)
  | installed

/-- What an operation answers. -/
inductive Answer
  | done
  | imported (l : License)
  | removed (existed : Bool)
  | found (l : Option License)
  | licenses (ls : List License)

namespace Answer

/-- The answer with every licence as it is read from its file. -/
def asRead : Answer → Answer
  | .done => .done
  | .imported l => .imported l.asRead
  | .removed existed => .removed existed
  | .found l => .found (l.map License.asRead)
  | .licenses ls => .licenses (ls.map License.asRead)

/-- The licences that an answer gives. -/
def given : Answer → List License
  | .done => []
  | .imported l => [l]
  | .removed _ => []
  | .found l => l.toList
  | .licenses ls => ls

/-- Whether two answers are the same, licence by licence. -/
inductive Same : Answer → Answer → Prop
  | done : Same .done .done
  | imported {l k : License} (h : l.same k = true) : Same (.imported l) (.imported k)
  | removed (existed : Bool) : Same (.removed existed) (.removed existed)
  | found {l k : Option License} (h : Option.Rel (fun l k => l.same k = true) l k) :
    Same (.found l) (.found k)
  | licenses {ls ks : List License} (h : List.Forall₂ (fun l k => l.same k = true) ls ks) :
    Same (.licenses ls) (.licenses ks)

theorem same_imported_iff {l k : License} :
    Same (.imported l) (.imported k) ↔ l.same k = true :=
  ⟨fun h => by cases h; assumption, .imported⟩

theorem same_found_iff {l k : Option License} :
    Same (.found l) (.found k) ↔ Option.Rel (fun l k => l.same k = true) l k :=
  ⟨fun h => by cases h; assumption, .found⟩

theorem same_licenses_iff {ls ks : List License} :
    Same (.licenses ls) (.licenses ks) ↔ List.Forall₂ (fun l k => l.same k = true) ls ks :=
  ⟨fun h => by cases h; assumption, .licenses⟩

/-- An answer is the same with every licence as it is read, unless the expiry date of one of them is
lost. -/
theorem same_asRead_iff (a : Answer) :
    a.asRead.Same a ↔ ∀ l ∈ a.given, ¬ LicenseDocument.LosesExpiration l.terms := by
  simp only [← License.same_asRead_iff]
  cases a with
  | done => simp [asRead, given, Same.done]
  | imported l => rw [asRead, same_imported_iff, given, List.forall_mem_singleton]
  | removed existed => simp [asRead, given, Same.removed]
  | found l =>
    rw [asRead, same_found_iff]
    cases l with
    | none => simp [given]
    | some l => simp [given]
  | licenses ls =>
    rw [asRead, same_licenses_iff, List.forall₂_map_left_iff, List.forall₂_same, given]

end Answer

/-- What an operation of the catalogue does on a machine. -/
def Operation.perform (r : Reference) : Operation → ExceptT Failure (StateM Machine) Answer
  | .install l => do
    Catalog.install r l
    return .done
  | .importFile source => return .imported (← Catalog.importFile r source)
  | .uninstall id => return .removed (← Catalog.uninstall r id)
  | .find id => return .found (← Catalog.find r (some id))
  | .installed => return .licenses (← Catalog.installed r)

namespace LicenseMap

/-- What installing a licence does to a map. It fails if the licence has no file. -/
def install (m : LicenseMap) (l : License) (answer : Answer) : Option Answer × LicenseMap :=
  if l.fileBytes.isOk then (some answer, m.put l) else (none, m)

/-- Installing does the same to a map, whatever it answers. -/
theorem map_install (m : LicenseMap) (l : License) {f : Answer → Answer} {answer answer' : Answer}
    (h : f answer = answer') : (m.install l answer).1.map f = (m.install l answer').1 := by
  unfold install
  split
  · exact congrArg some h
  · rfl

/-- What an operation answers on a map, if it does not fail, and the map after it. `sources` are the
licences in files elsewhere. -/
def step (sources : Path → Option License) (m : LicenseMap) :
    Operation → Option Answer × LicenseMap
  | .install l => m.install l .done
  | .importFile source =>
    match sources source with
    | some l => m.install l (.imported l)
    | none => (none, m)
  | .uninstall id => (some (.removed (m.get? id).isSome), m.remove id)
  | .find id => (some (.found (m.get? id)), m)
  | .installed => (some (.licenses m.licenses), m)

end LicenseMap

open Machine

/-- Whether an operation on a machine answers as it does on a map: it gives the licences of the map
as they are read, and these are the same, unless the expiry date of one of them is lost. It fails
where it fails there, and then leaves all files as they were, and a listing gives no warning. -/
structure Agrees (r : Reference) (sources : Path → Option License) (w : Machine) (m : LicenseMap)
    (op : Operation) : Prop where
  answer : (run (op.perform r) w).1.toOption = (m.step sources op).1.map Answer.asRead
  same : Option.Rel Answer.Same (run (op.perform r) w).1.toOption (m.step sources op).1 ↔
    ∀ a ∈ (m.step sources op).1, ∀ l ∈ a.given, ¬ LicenseDocument.LosesExpiration l.terms
  failed : (m.step sources op).1 = none → (run (op.perform r) w).2.disk = w.disk
  quiet : op = .installed → ∃ message,
    (run (op.perform r) w).2.journal = w.journal ++ [.record .catalog .info message]

/-- What is given is the same as on the map wherever it is what the map has, as it is read. -/
theorem Agrees.of_answer {r : Reference} {sources : Path → Option License} {w : Machine}
    {m : LicenseMap} {op : Operation}
    (answer : (run (op.perform r) w).1.toOption = (m.step sources op).1.map Answer.asRead)
    (failed : (m.step sources op).1 = none → (run (op.perform r) w).2.disk = w.disk)
    (quiet : op = .installed → ∃ message,
      (run (op.perform r) w).2.journal = w.journal ++ [.record .catalog .info message]) :
    Agrees r sources w m op := by
  refine ⟨answer, ?_, failed, quiet⟩
  rw [answer]
  cases (m.step sources op).1 with
  | none => simp
  | some a => simp [Answer.same_asRead_iff]

/-- Whether a machine answers operation after operation as a map does. -/
def Follows (r : Reference) (sources : Path → Option License) :
    Machine → LicenseMap → List Operation → Prop
  | _, _, [] => True
  | w, m, op :: ops =>
    Agrees r sources w m op ∧ Follows r sources (run (op.perform r) w).2 (m.step sources op).2 ops

namespace Operation

variable {α : Type} {r : Reference} {w : Machine}

/-- What an operation answers is made of the result of what it does, and making it changes nothing.
-/
theorem run_answer (act : ExceptT Failure (StateM Machine) α) (f : α → Answer) (w : Machine) :
    run (act >>= fun a => pure (f a)) w = ((run act w).1.map f, (run act w).2) := by
  rcases h : run act w with ⟨x, v⟩
  cases x with
  | error e => exact run_bind_error h
  | ok a => exact run_bind_ok h

/-- Installing a licence stores it. If this fails, all files are as they were. -/
theorem run_perform_install (r : Reference) (l : License) (w : Machine) :
    (run ((Operation.install l).perform r) w).1 = (w.disk.store r l).map (fun _ => .done) ∧
      (run ((Operation.install l).perform r) w).2.disk
        = (w.disk.store r l).toOption.getD w.disk := by
  obtain ⟨hresult, hdisk⟩ := Catalog.run_install r l w
  rw [perform, run_answer _ (fun _ => .done), hresult, hdisk]
  refine ⟨?_, rfl⟩
  cases w.disk.store r l with
  | error e => rfl
  | ok d => rfl

/-- Importing a licence answers with it and stores it. If this fails, all files are as they were. -/
theorem run_perform_importFile (r : Reference) (source : Path) (w : Machine) :
    (run ((Operation.importFile source).perform r) w).1
        = (w.disk.importFile r source).map (fun x => .imported x.1) ∧
      (run ((Operation.importFile source).perform r) w).2.disk
        = ((w.disk.importFile r source).map Prod.snd).toOption.getD w.disk := by
  obtain ⟨hresult, hdisk⟩ := Catalog.run_importFile r source w
  rw [perform, run_answer, hresult, hdisk]
  refine ⟨?_, rfl⟩
  cases w.disk.importFile r source with
  | error e => rfl
  | ok x => rfl

/-- Finding a licence retrieves it and changes no file. -/
theorem run_perform_find (r : Reference) (id : LicenseId) (w : Machine) :
    (run ((Operation.find id).perform r) w).1 = (w.disk.retrieve r (some id)).map .found ∧
      (run ((Operation.find id).perform r) w).2.disk = w.disk := by
  obtain ⟨hresult, hdisk⟩ := Store.run_retrieve r (some id) w
  rw [perform, run_answer]
  exact ⟨congrArg (Except.map Answer.found) hresult, hdisk⟩

/-- A licence that reads back is found as soon as it has been installed, as it is read. -/
theorem exists_find_of_install {l : License} {directory : Path} {d : Disk} (hl : l.ReadsBack)
    (hstore : w.disk.store (.file directory true) l = .ok d) :
    ∃ v, run ((Operation.install l).perform (.file directory true)) w = (.ok .done, v) ∧
      (run ((Operation.find l.id).perform (.file directory true)) v).1
        = .ok (.found (some l.asRead)) := by
  obtain ⟨hresult, hdisk⟩ := run_perform_install (.file directory true) l w
  rw [hstore] at hresult hdisk
  refine ⟨_, Prod.ext hresult rfl, ?_⟩
  have hfound : d.retrieve (.file directory true) (some l.id) = .ok (some l.asRead) :=
    Store.retrieve_store hl hstore
  rw [(run_perform_find (.file directory true) l.id _).1, hdisk]
  exact congrArg (Except.map Answer.found) hfound

/-! Removing a licence. -/

variable {directory p : Path} {id : LicenseId}

theorem run_removeFile_of_ok {d : Disk} (h : w.disk.unlink p = .ok d) :
    run (Store.removeFile (m := StateM Machine) p) w = (.ok (), { w with disk := d }) := by
  rw [Store.run_removeFile, h]

theorem run_removeFile_of_missing {q : Path} (h : w.disk.unlink p = .error (.refused .missing q)) :
    run (Store.removeFile (m := StateM Machine) p) w = (.ok (), w) := by
  rw [Store.run_removeFile, h]

/-- Uninstalling a licence tells whether its file was there before, and removes it. -/
theorem run_perform_uninstall {existed : Bool} {d : Disk}
    (hholds : w.disk.holds (directory.child id.fileName) = .ok existed)
    (hremove : run (Store.removeFile (m := StateM Machine) (directory.child id.fileName)) w
      = (.ok (), { w with disk := d })) :
    (run ((Operation.uninstall id).perform (.file directory true)) w).1 = .ok (.removed existed) ∧
      (run ((Operation.uninstall id).perform (.file directory true)) w).2.disk = d := by
  have hcontains := Store.run_contains directory id w
  rw [hholds] at hcontains
  have hdelete : run (Store.delete (m := StateM Machine) (.file directory true) (some id)) w
      = (.ok (), { w with disk := d }) := hremove
  rw [perform, run_answer, Catalog.uninstall, run_bind_ok hcontains, run_bind_ok hdelete]
  cases existed with
  | true => exact ⟨rfl, rfl⟩
  | false => exact ⟨rfl, rfl⟩

/-! Listing all licences. -/

/-- The licences that can be read are listed, with one warning for each file that cannot be read. -/
theorem run_perform_installed {names : List String} (h : w.disk.list directory = .ok names) :
    ∃ message, run (Operation.installed.perform (.file directory true)) w
      = (.ok (.licenses (Store.readable w.disk (Store.filesAmong directory names))),
        (Machine.reporting w (Store.warnings w.disk (Store.filesAmong directory names))).noting
          (.record .catalog .info message)) := by
  rw [perform, run_answer, Catalog.installed, run_bind_ok (Store.run_licenses h)]
  exact ⟨_, rfl⟩

end Operation

end LicenseDepot
