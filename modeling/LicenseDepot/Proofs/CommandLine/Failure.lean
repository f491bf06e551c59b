import LicenseDepot.CommandLine.Run
import LicenseDepot.Proofs.Catalog.Import
import LicenseDepot.Proofs.Files.Removal

/-!
# What operations fail with

Whatever the file system refuses to an operation on a store, the depot reports itself, passes over
or notes, with one exception: whether there is a file for a licence is asked for in a way that
passes on what the file system says. That is no more than that something is too long, and `Asks`
tells which path it is. The lemmas on `Ends` take an operation apart into its steps.
-/

namespace LicenseDepot.CommandLine

open Store

variable {α β : Type} {act : ExceptT Failure (StateM Machine) α} {done : α → Prop}
  {done' : β → Prop} {failed : Failure → Prop}

/-! What operations can end with. -/

/-- Whether an operation ends on every machine with one of some results or of some failures. -/
def Ends (act : ExceptT Failure (StateM Machine) α) (done : α → Prop) (failed : Failure → Prop) :
    Prop :=
  ∀ w, (∀ a, (Machine.run act w).1 = .ok a → done a) ∧
    ∀ e, (Machine.run act w).1 = .error e → failed e

/-- Anything. -/
abbrev Any (_ : α) : Prop := True

theorem ends_pure {a : α} (h : done a) : Ends (pure a) done failed := by
  intro w
  refine ⟨fun b hb => ?_, fun e he => nomatch he⟩
  cases hb
  exact h

theorem ends_throw {e : Failure} (h : failed e) :
    Ends (throw e : ExceptT Failure (StateM Machine) α) done failed := by
  intro w
  refine ⟨fun b hb => (nomatch hb), fun e' he => ?_⟩
  cases he
  exact h

/-- What cannot fail ends with some result. -/
theorem ends_lift (x : StateM Machine α) :
    Ends (liftM x : ExceptT Failure (StateM Machine) α) Any failed :=
  fun _ => ⟨fun _ _ => trivial, fun _ he => nomatch he⟩

/-- Two steps in a row fail with what one of them fails with. -/
theorem Ends.bind {f : α → ExceptT Failure (StateM Machine) β} (hact : Ends act Any failed)
    (hf : ∀ a, Ends (f a) done' failed) : Ends (act >>= f) done' failed := by
  intro w
  have hfailed := (hact w).2
  rcases hrun : Machine.run act w with ⟨x, v⟩
  rw [hrun] at hfailed
  cases x with
  | error e =>
    rw [Machine.run_bind_error hrun]
    refine ⟨fun _ h => (nomatch h), fun e' he => ?_⟩
    cases he
    exact hfailed e rfl
  | ok a =>
    rw [Machine.run_bind_ok hrun]
    exact hf a v

/-- A value that has been worked out before fails just as it was to be reported. -/
theorem ends_orFail {ε : Type} {wrap : ε → Failure} {x : Except ε α}
    (h : ∀ e, x = .error e → failed (wrap e)) : Ends (orFail wrap x) Any failed := by
  cases x with
  | ok a => exact ends_pure trivial
  | error e => exact ends_throw (h e rfl)

/-- The two events around an operation change nothing about how it ends. -/
theorem Ends.measured {operation : String} {subjects : List Subject} (h : Ends act done failed) :
    Ends (measured operation subjects act) done failed := by
  intro w
  exact Machine.run_measured (P := fun x _ => (∀ a, x = .ok a → done a) ∧
    ∀ e, x = .error e → failed e) fun v _ => h v

/-- A loop fails only with what a turn of it fails with, by induction on the list. -/
theorem ends_forIn {l : List β} {f : β → PUnit → ExceptT Failure (StateM Machine) (ForInStep PUnit)}
    (hf : ∀ b u, Ends (f b u) Any failed) : Ends (forIn l PUnit.unit f) Any failed := by
  induction l with
  | nil => exact ends_pure trivial
  | cons b l ih =>
    rw [List.forIn_cons]
    refine (hf b _).bind fun step => ?_
    cases step with
    | done u => exact ends_pure trivial
    | yield u => exact ih

/-! Failures that the depot reports. -/

/-- Whether an operation fails only with what the depot itself reports. -/
abbrev FailsReported (act : ExceptT Failure (StateM Machine) α) : Prop :=
  Ends act Any (isReported · = true)

theorem failsReported_reference (x : Except Reference.Fault Path) :
    FailsReported (orFail .reference x) :=
  ends_orFail fun _ _ => rfl

/-- A directory that cannot be listed is worth a warning and no failure, but for a path that no file
system takes. -/
theorem failsReported_licenseFiles (directory : Path) : FailsReported (licenseFiles directory) := by
  refine (ends_lift _).bind fun listed => ?_
  split
  · exact ends_pure trivial
  · exact ends_throw rfl
  · exact ends_pure trivial
  · exact (ends_lift _).bind fun _ => ends_pure trivial
  · exact (ends_lift _).bind fun _ => ends_pure trivial

theorem failsReported_licenses (r : Reference) : FailsReported (licenses r) := by
  have hdirectory : ∀ e, directory r = .error e → isReported (id e) = true := by
    intro e he
    unfold directory at he
    split at he
    · cases he
      rfl
    · split at he
      · cases he
      · cases he
        rfl
  have hiterate : ∀ p, FailsReported (iterate p) :=
    fun p => (failsReported_licenseFiles p).bind fun _ => ends_pure trivial
  exact (ends_orFail hdirectory).bind fun p => (hiterate p).bind fun it =>
    (ends_lift _).bind fun _ => ends_pure trivial

/-- Whatever is wrong with a licence or with the file it is written to is reported as a failure of
the store. -/
theorem failsReported_store (r : Reference) (l : License) : FailsReported (store r l) := by
  have hbytes : ∀ (p : Path) (e : Failure), bytesFor l p = .error e → isReported (id e) = true := by
    intro p e he
    unfold bytesFor at he
    split at he
    · cases he
    · cases he
      rfl
    · cases he
      rfl
  refine Ends.measured ((failsReported_reference _).bind fun p =>
    (ends_orFail (hbytes p)).bind fun data => (ends_lift _).bind fun written => ?_)
  split
  · exact ends_throw rfl
  · exact ends_throw rfl
  · exact ends_lift _

/-- However a licence cannot be read, the failure is wrapped. -/
theorem failsReported_readFile (p : Path) (wrap : ReadFault → Failure)
    (hwrap : ∀ e, isReported (wrap e) = true) : FailsReported ((readFile p).adapt wrap) := by
  intro w
  rw [Machine.run_adapt]
  refine ⟨fun _ _ => trivial, fun e he => ?_⟩
  obtain ⟨fault, -, rfl⟩ := mapError_eq_error_iff.1 he
  exact hwrap fault

theorem failsReported_importFile (r : Reference) (source : Path) :
    FailsReported (Catalog.importFile r source) := by
  have hinstall : ∀ l, FailsReported (Catalog.install r l) :=
    fun l => (failsReported_store r l).bind fun _ => ends_lift _
  exact (failsReported_readFile source _ fun _ => rfl).bind fun l =>
    (hinstall l).bind fun _ => ends_pure trivial

/-- A file that cannot be removed is worth a warning and no failure. -/
theorem failsReported_removeFile (p : Path) : FailsReported (removeFile p) := by
  refine (ends_lift _).bind fun removed => ?_
  split
  · exact ends_pure trivial
  · exact ends_throw rfl
  · exact ends_pure trivial
  · exact ends_lift _

theorem failsReported_removeAll (p : Path) : FailsReported (removeAll p) := by
  refine (ends_lift _).bind fun removed => ?_
  split
  · exact ends_pure trivial
  · exact ends_throw rfl
  · exact ends_lift _

/-- Removing a licence or a whole store fails only with what the depot reports. -/
theorem failsReported_delete (r : Reference) (id : Option LicenseId) :
    FailsReported (delete r id) := by
  cases id with
  | some id => exact (failsReported_reference _).bind fun p => failsReported_removeFile p
  | none =>
    refine (failsReported_reference _).bind fun p => ?_
    split
    · exact failsReported_removeAll p
    · exact failsReported_removeFile p

/-! Failures that the file system reports. -/

/-- Whether an operation fails with what the depot reports, or because it asks whether a path leads
to something and the file system refuses that as too long. -/
def Asks (act : ExceptT Failure (StateM Machine) α) (asked : Option Path) : Prop :=
  ∀ w, (∀ e, (Machine.run act w).1 = .error e → isReported e = true ∨
      ∃ p, asked = some p ∧ w.disk.holds p = .error (.refused .nameTooLong p) ∧
        e = .access (.refused .nameTooLong p)) ∧
    ∀ p, asked = some p → w.disk.holds p = .error (.refused .nameTooLong p) →
      (Machine.run act w).1 = .error (.access (.refused .nameTooLong p))

theorem FailsReported.asks (h : FailsReported act) : Asks act none :=
  fun w => ⟨fun e he => .inl ((h w).2 e he), fun _ hno => nomatch hno⟩

/-- What is asked for first may be refused; all that follows must fail with reports only. -/
theorem Asks.bind {asked : Option Path} {f : α → ExceptT Failure (StateM Machine) β}
    (hact : Asks act asked) (hf : ∀ a, FailsReported (f a)) : Asks (act >>= f) asked := by
  intro w
  obtain ⟨hfailed, htoo⟩ := hact w
  rcases hrun : Machine.run act w with ⟨x, v⟩
  rw [hrun] at hfailed htoo
  cases x with
  | error e =>
    rw [Machine.run_bind_error hrun]
    refine ⟨fun e' he => ?_, fun p hp hholds => ?_⟩
    · cases he
      exact hfailed e rfl
    · cases htoo p hp hholds
      rfl
  | ok a =>
    rw [Machine.run_bind_ok hrun]
    exact ⟨fun e he => .inl ((hf a v).2 e he), fun p hp hholds => nomatch htoo p hp hholds⟩

/-- What is asked after something has been found out that does not depend on the machine. -/
theorem Asks.after {x : Except Failure α} (hact : ∀ w, Machine.run act w = (x, w))
    (hx : ∀ e, x = .error e → isReported e = true) {asked : α → Option Path}
    {f : α → ExceptT Failure (StateM Machine) β} (hf : ∀ a, Asks (f a) (asked a)) :
    Asks (act >>= f) (x.toOption.bind asked) := by
  intro w
  have hrun := hact w
  cases x with
  | error e =>
    rw [Machine.run_bind_error hrun]
    refine ⟨fun e' he => .inl ?_, fun p hp => nomatch hp⟩
    cases he
    exact hx e rfl
  | ok a =>
    rw [Machine.run_bind_ok hrun]
    exact hf a w

theorem Asks.measured {operation : String} {subjects : List Subject} {asked : Option Path}
    (h : Asks act asked) : Asks (measured operation subjects act) asked := by
  intro w
  refine Machine.run_measured (P := fun x _ => (∀ e, x = .error e → isReported e = true ∨
      ∃ p, asked = some p ∧ w.disk.holds p = .error (.refused .nameTooLong p) ∧
        e = .access (.refused .nameTooLong p)) ∧
    ∀ p, asked = some p → w.disk.holds p = .error (.refused .nameTooLong p) →
      x = .error (.access (.refused .nameTooLong p))) fun v hv => ?_
  rw [← hv]
  exact h v

/-- Asking whether a path leads to something passes on that the path is too long. -/
theorem asks_holds (p : Path) : Asks (holds p) (some p) := by
  intro w
  rw [run_holds]
  refine ⟨fun e he => .inr ⟨p, rfl, ?_⟩, fun q hq hholds => ?_⟩
  · obtain ⟨fault, hholds, rfl⟩ := mapError_eq_error_iff.1 he
    rw [hholds, Disk.fault_of_holds hholds]
    exact ⟨rfl, rfl⟩
  · cases hq
    rw [hholds]
    rfl

theorem isReported_of_fileOf {r : Reference} {id : Option LicenseId} {e : Failure}
    (h : r.fileOf id = .error e) : isReported e = true := by
  cases id with
  | some id =>
    obtain ⟨fault, -, rfl⟩ := mapError_eq_error_iff.1 h
    rfl
  | none =>
    rcases bind_eq_error_iff.1 h with hpath | ⟨p, -, hmulti⟩
    · obtain ⟨fault, -, rfl⟩ := mapError_eq_error_iff.1 hpath
      rfl
    · split at hmulti
      · cases hmulti
        rfl
      · cases hmulti

/-- Whoever asks for the file of a licence asks whether its path leads to something. -/
theorem asks_fileOf (r : Reference) (id : Option LicenseId)
    {f : Path → ExceptT Failure (StateM Machine) β} (hf : ∀ p, Asks (f p) (some p)) :
    Asks (fileOf r id >>= f) (r.fileOf id).toOption := by
  have hasks := Asks.after (run_fileOf r id) (fun _ => isReported_of_fileOf) hf
  rw [Option.bind_fun_some] at hasks
  exact hasks

/-- Finding a licence asks for the path of its file. -/
theorem asks_find (r : Reference) (id : Option LicenseId) :
    Asks (Catalog.find r id) (r.fileOf id).toOption := by
  refine Asks.measured (asks_fileOf r id fun p => (asks_holds p).bind fun there => ?_)
  cases there with
  | false => exact (ends_lift _).bind fun _ => ends_pure trivial
  | true => exact (failsReported_readFile p (.unreadable p) fun _ => rfl).bind fun _ =>
      ends_pure trivial

/-- Removing a licence asks for that path too, before anything is removed. -/
theorem asks_uninstall (r : Reference) (id : LicenseId) :
    Asks (Catalog.uninstall r id) (r.fileOf (some id)).toOption := by
  have hcontains : Asks (contains r id) (r.fileOf (some id)).toOption :=
    asks_fileOf r (some id) asks_holds
  refine hcontains.bind fun existed => (failsReported_delete r (some id)).bind fun _ => ?_
  cases existed with
  | true => exact (ends_lift _).bind fun _ => ends_pure trivial
  | false => exact ends_pure trivial

theorem asks_parseId {text : String} {asked : LicenseId → Option Path}
    {f : LicenseId → ExceptT Failure (StateM Machine) β} (hf : ∀ id, Asks (f id) (asked id)) :
    Asks (parseId text >>= f) ((LicenseId.ofString text).toOption.bind asked) := by
  have hreported : ∀ e, (LicenseId.ofString text).mapError Failure.notAnId = .error e →
      isReported e = true := by
    intro e he
    obtain ⟨fault, -, rfl⟩ := mapError_eq_error_iff.1 he
    rfl
  have hasks := Asks.after (run_orFail Failure.notAnId (LicenseId.ofString text)) hreported hf
  rw [toOption_mapError] at hasks
  exact hasks

end LicenseDepot.CommandLine
