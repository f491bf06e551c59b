import LicenseDepot.Journal.Measure
import LicenseDepot.Proofs.Outcome

/-!
# Operations on a machine

An operation on a machine that is a value gives a result and a machine. `Machine.run` is both, and
the equations below take an operation apart step by step. A measured operation runs between two
reports (`run_measured_eq`), for which readings are used up; neither its result nor what it does to
files is changed (`run_measured`).
-/

namespace LicenseDepot.Machine

open Numeral

variable {ε ε' α β : Type}

/-- The result of an operation on a machine, and the machine after it. -/
def run (act : ExceptT ε (StateM Machine) α) (w : Machine) : Except ε α × Machine :=
  StateT.run act.run w

@[simp] theorem run_pure (a : α) (w : Machine) :
    run (pure a : ExceptT ε (StateM Machine) α) w = (.ok a, w) := rfl

@[simp] theorem run_throw (e : ε) (w : Machine) :
    run (throw e : ExceptT ε (StateM Machine) α) w = (.error e, w) := rfl

@[simp] theorem run_lift (x : StateM Machine α) (w : Machine) :
    run (liftM x : ExceptT ε (StateM Machine) α) w = (.ok (x w).1, (x w).2) := rfl

@[simp] theorem run_mk_bind {γ : Type} (x : StateM Machine γ)
    (f : γ → StateM Machine (Except ε α)) (w : Machine) :
    run (ExceptT.mk (x >>= f)) w = f (x w).1 (x w).2 := rfl

theorem run_bind_ok {act : ExceptT ε (StateM Machine) α} {f : α → ExceptT ε (StateM Machine) β}
    {w w' : Machine} {a : α} (h : run act w = (.ok a, w')) : run (act >>= f) w = run (f a) w' := by
  change StateT.run (ExceptT.bindCont f (run act w).1) (run act w).2 = _
  rw [h]
  rfl

theorem run_bind_error {act : ExceptT ε (StateM Machine) α}
    {f : α → ExceptT ε (StateM Machine) β} {w w' : Machine} {e : ε}
    (h : run act w = (.error e, w')) : run (act >>= f) w = (.error e, w') := by
  change StateT.run (ExceptT.bindCont f (run act w).1) (run act w).2 = _
  rw [h]
  rfl

theorem run_lift_bind (x : StateM Machine α) (f : α → ExceptT ε (StateM Machine) β) (w : Machine) :
    run (liftM x >>= f) w = run (f (x w).1) (x w).2 :=
  run_bind_ok (run_lift x w)

theorem run_adapt (act : ExceptT ε (StateM Machine) α) (f : ε → ε') (w : Machine) :
    run (act.adapt f) w = ((run act w).1.mapError f, (run act w).2) := rfl

/-- What is done about a failure is done on the machine that it leaves. -/
theorem run_tryCatch (act : ExceptT ε (StateM Machine) α)
    (handle : ε → ExceptT ε (StateM Machine) α) (w : Machine) :
    run (tryCatch act handle) w
      = match run act w with
        | (.ok a, v) => (.ok a, v)
        | (.error e, v) => run (handle e) v := by
  have hcaught : run (tryCatch act handle) w
      = match (run act w).1 with
        | .ok a => (.ok a, (run act w).2)
        | .error e => run (handle e) (run act w).2 := by
    change StateT.run (match (run act w).1 with | .ok a => _ | .error e => _) (run act w).2 = _
    split <;> rfl
  rcases hact : run act w with ⟨x, v⟩
  rw [hcaught, hact]
  cases x <;> rfl

theorem bind_apply {x : StateM Machine α} {f : α → StateM Machine β} {w w' : Machine} {a : α}
    (h : x w = (a, w')) : (x >>= f) w = f a w' := by
  change f (x w).1 (x w).2 = _
  rw [h]

/-! Operations put together of others. -/

/-- Whether a relation between the machine before and after holds of doing nothing, and of two
things in a row if it holds of each. -/
structure Composes (R : Machine → Machine → Prop) : Prop where
  refl : ∀ w, R w w
  trans : ∀ {u v w}, R u v → R v w → R u w

namespace Composes

variable {R : Machine → Machine → Prop}

theorem bind (hR : Composes R) {x : StateM Machine α} {f : α → StateM Machine β}
    (hx : ∀ w, R w (x w).2) (hf : ∀ a w, R w (f a w).2) : ∀ w, R w ((x >>= f) w).2 :=
  fun w => hR.trans (hx w) (hf (x w).1 (x w).2)

theorem run_bind (hR : Composes R) {act : ExceptT ε (StateM Machine) α}
    {f : α → ExceptT ε (StateM Machine) β} (hact : ∀ w, R w (run act w).2)
    (hf : ∀ a w, R w (run (f a) w).2) : ∀ w, R w (run (act >>= f) w).2 := by
  have hcont : ∀ r w, R w (ExceptT.bindCont f r w).2 := by
    intro r
    cases r with
    | ok a => exact hf a
    | error e => exact hR.refl
  exact hR.bind hact hcont

end Composes

/-! What leaves the files alone. -/

/-- Whether an operation that cannot fail leaves the files as they are. -/
def KeepsDisk (x : StateM Machine α) : Prop :=
  ∀ w, (x w).2.disk = w.disk

theorem composes_keepsDisk : Composes fun w v => v.disk = w.disk where
  refl _ := rfl
  trans h h' := h'.trans h

theorem KeepsDisk.bind {x : StateM Machine α} {f : α → StateM Machine β} (hx : KeepsDisk x)
    (hf : ∀ a, KeepsDisk (f a)) : KeepsDisk (x >>= f) :=
  composes_keepsDisk.bind hx hf

theorem keepsDisk_pure (a : α) : KeepsDisk (pure a) :=
  fun _ => rfl

theorem KeepsDisk.run_bind {act : ExceptT ε (StateM Machine) α}
    {f : α → ExceptT ε (StateM Machine) β} (hact : KeepsDisk act.run)
    (hf : ∀ a, KeepsDisk (f a).run) : KeepsDisk (act >>= f).run :=
  composes_keepsDisk.run_bind hact hf

theorem KeepsDisk.lift {x : StateM Machine α} (hx : KeepsDisk x) :
    KeepsDisk (liftM x : ExceptT ε (StateM Machine) α).run :=
  hx.bind fun _ => keepsDisk_pure _

theorem keepsDisk_report (n : Notice) : KeepsDisk (Host.report n) :=
  fun _ => rfl

theorem keepsDisk_holds (p : Path) : KeepsDisk (Host.holds p) :=
  fun _ => rfl

theorem keepsDisk_read (p : Path) : KeepsDisk (Host.read p) :=
  fun _ => rfl

theorem keepsDisk_list (p : Path) : KeepsDisk (Host.list p) :=
  fun _ => rfl

/-! Measured operations. -/

/-- The event with which an operation starts on a machine. -/
def startEvent (operation : String) (c : Context) (w : Machine) : Event where
  name := s!"{operation}.started"
  correlation := w.readings.token.headD "00000000"
  time := .decimal (w.readings.time.headD default)
  data := c.members ++ [("start_ram_mb", .decimal (memoryInUse (m := StateM Machine) w).1)]

/-- What is left of some readings when one of each kind has been used up. -/
def readingsLeft (r : Readings) : Readings :=
  ⟨r.stopwatch.tail, r.time.tail, r.memory.tail, r.token.tail⟩

/-- The machine on which an operation runs that is measured. -/
def startMachine (operation : String) (c : Context) (w : Machine) : Machine where
  disk := w.disk
  journal := w.journal ++ [.event (startEvent operation c w)]
  readings := readingsLeft w.readings

/-- The event with which an operation ends that started with some readings. -/
def endEvent [Reportable ε] (operation token : String) (c : Context)
    (start startRam : Binary64) (failure : Option ε) (w : Machine) : Event :=
  let duration := w.readings.stopwatch.headD default - start
  let ram := (memoryInUse (m := StateM Machine) w).1
  let time := .decimal (w.readings.time.headD default)
  match failure with
  | none => ⟨s!"{operation}.completed", token, "INFO", time, completedData duration ram startRam c⟩
  | some err => ⟨s!"{operation}.failed", token, "ERROR", time, failedData duration ram c err⟩

/-- The machine after an operation that is measured. -/
def endMachine (e : Event) (w : Machine) : Machine where
  disk := w.disk
  journal := w.journal ++ [.event e]
  readings := { w.readings with
    stopwatch := w.readings.stopwatch.tail
    time := w.readings.time.tail
    memory := w.readings.memory.tail }

/-- A measured operation runs after the event with which it starts, and the one with which it ends
follows. -/
theorem run_measured_eq [Reportable ε] {operation : String} {subjects : List Subject}
    {act : ExceptT ε (StateM Machine) α} {w after : Machine} {r : Except ε α}
    (h : run act (startMachine operation (.ofSubjects subjects) w) = (r, after)) :
    run (measured operation subjects act) w = (r, endMachine
      (endEvent operation (w.readings.token.headD "00000000") (.ofSubjects subjects)
        (w.readings.stopwatch.headD default) (memoryInUse (m := StateM Machine) w).1
        (failure? r) after) after) := by
  have hbind : ∀ {β γ : Type} (x : StateM Machine β) (f : β → StateM Machine γ) (v : Machine),
      (x >>= f) v = f (x v).1 (x v).2 := fun _ _ _ => rfl
  unfold measured
  -- The stopwatch, the memory and the token are read and the first event is reported.
  rw [run_mk_bind, hbind, hbind, hbind]
  refine (bind_apply (x := act.run) h).trans ?_
  cases r with
  | ok a => rfl
  | error e => rfl

/-- What holds of the result and the files of an operation on any machine with some files holds of
them if the operation is measured. -/
theorem run_measured [Reportable ε] {operation : String} {subjects : List Subject}
    {act : ExceptT ε (StateM Machine) α} {w : Machine} {P : Except ε α → Disk → Prop}
    (h : ∀ v : Machine, v.disk = w.disk → P (run act v).1 (run act v).2.disk) :
    P (run (measured operation subjects act) w).1
      (run (measured operation subjects act) w).2.disk := by
  rcases hact : run act (startMachine operation (.ofSubjects subjects) w) with ⟨r, after⟩
  have hP := h (startMachine operation (.ofSubjects subjects) w) rfl
  rw [hact] at hP
  rw [run_measured_eq hact]
  exact hP

end LicenseDepot.Machine
