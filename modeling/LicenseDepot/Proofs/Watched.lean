import LicenseDepot.Proofs.Machine

/-!
# Hosts that are watched

Operations are written for any host, so what they ask for can be told by running them on a host that
keeps a record. `ReadLog` is a record of the files that are read, on a machine that does everything
else as before. `Observed` says what a machine and a watched machine have in common: an operation
that lists and reads files and reports is run once for both.
-/

namespace LicenseDepot

variable {m : Type → Type} [Monad m] [Host m]

/-- A host with a state beside it that it does not use. -/
@[reducible]
def Host.beside (σ : Type) : Host (StateT σ m) where
  report n := StateT.lift (Host.report n)
  stopwatch := StateT.lift Host.stopwatch
  time := StateT.lift Host.time
  memory := StateT.lift Host.memory
  token := StateT.lift Host.token
  holds p := StateT.lift (Host.holds p)
  read p := StateT.lift (Host.read p)
  write p content := StateT.lift (Host.write p content)
  list p := StateT.lift (Host.list p)
  unlink p := StateT.lift (Host.unlink p)
  removeTree p := StateT.lift (Host.removeTree p)

/-- The files that have been read, first ones first. -/
structure ReadLog where
  paths : List Path

/-- A host that notes each file that it is asked to read. -/
instance : Host (StateT ReadLog m) :=
  { Host.beside ReadLog with
    read := fun p => do
      modify fun log => ⟨log.paths ++ [p]⟩
      StateT.lift (Host.read p) }

namespace Machine

variable {ε α β : Type}

/-- The result of an operation on a machine that is watched, the files that have been read when it
is done, and the machine after it. -/
def watch (act : ExceptT ε (StateT ReadLog (StateM Machine)) α) (log : ReadLog) (w : Machine) :
    (Except ε α × ReadLog) × Machine :=
  StateT.run (StateT.run act.run log) w

theorem bind_watched {σ : Type} {x : StateT σ (StateM Machine) α}
    {f : α → StateT σ (StateM Machine) β} {log log' : σ} {w w' : Machine} {a : α}
    (h : x log w = ((a, log'), w')) : (x >>= f) log w = f a log' w' := by
  change f (x log w).1.1 (x log w).1.2 (x log w).2 = _
  rw [h]

/-- The machine after some more reports. -/
def reporting (w : Machine) (ns : List Notice) : Machine :=
  { w with journal := w.journal ++ ns }

@[simp] theorem reporting_nil (w : Machine) : w.reporting [] = w := by
  simp [reporting]

theorem reporting_reporting (w : Machine) (ns ns' : List Notice) :
    (w.reporting ns).reporting ns' = w.reporting (ns ++ ns') := by
  simp [reporting, List.append_assoc]

end Machine

/-! Running once for a machine and a watched machine. -/

/-- States that have files, and that can be told what has been read and what has been reported. -/
class Observable (σ : Type) where
  diskOf : σ → Disk
  /-- The state after some files have been read and some reports made. -/
  after : σ → List Path → List Notice → σ
  diskOf_after (s : σ) (ps : List Path) (ns : List Notice) : diskOf (after s ps ns) = diskOf s
  after_nil (s : σ) : after s [] [] = s
  after_after (s : σ) (ps ps' : List Path) (ns ns' : List Notice) :
    after (after s ps ns) ps' ns' = after s (ps ++ ps') (ns ++ ns')

open Observable

/-- How a host runs on such states that lists and reads files and reports. -/
class Observed (m : Type → Type) [Monad m] [Host m] (σ : outParam Type) [Observable σ] where
  act {α : Type} : m α → σ → α × σ
  act_pure {α : Type} (a : α) (s : σ) : act (pure a : m α) s = (a, s)
  act_bind {α β : Type} (x : m α) (f : α → m β) (s : σ) :
    act (x >>= f) s = act (f (act x s).1) (act x s).2
  act_list (p : Path) (s : σ) : act (Host.list p : m _) s = ((diskOf s).list p, s)
  act_read (p : Path) (s : σ) : act (Host.read p : m _) s = ((diskOf s).read p, after s [p] [])
  act_report (n : Notice) (s : σ) : act (Host.report n : m Unit) s = ((), after s [] [n])

/-- A machine tells what has been reported, and not what has been read. -/
instance : Observable Machine where
  diskOf := Machine.disk
  after w _ ns := w.reporting ns
  diskOf_after _ _ _ := rfl
  after_nil := Machine.reporting_nil
  after_after w _ _ := Machine.reporting_reporting w

instance : Observed (StateM Machine) Machine where
  act x w := x w
  act_pure _ _ := rfl
  act_bind _ _ _ := rfl
  act_list _ _ := rfl
  act_read _ w := congrArg (Prod.mk _) (Machine.reporting_nil w).symm
  act_report _ _ := rfl

/-- A machine that is watched tells both. -/
instance : Observable (ReadLog × Machine) where
  diskOf s := s.2.disk
  after s ps ns := (⟨s.1.paths ++ ps⟩, s.2.reporting ns)
  diskOf_after _ _ _ := rfl
  after_nil s := by rw [List.append_nil, Machine.reporting_nil]
  after_after s ps ps' ns ns' := by rw [List.append_assoc, Machine.reporting_reporting]

instance : Observed (StateT ReadLog (StateM Machine)) (ReadLog × Machine) where
  act x s := ((x s.1 s.2).1.1, (x s.1 s.2).1.2, (x s.1 s.2).2)
  act_pure _ _ := rfl
  act_bind _ _ _ := rfl
  act_list _ _ := rfl
  act_read _ s := congrArg (fun w => (_, _, w)) (Machine.reporting_nil s.2).symm
  act_report _ s := congrArg (fun ps => ((), ReadLog.mk ps, _)) (List.append_nil s.1.paths).symm

namespace Observed

variable {σ ε α β : Type} [Observable σ] [Observed m σ] {s s' : σ}

/-- What follows an action that does not fail is run on the state after it. -/
theorem act_run_bind {x : ExceptT ε m α} {f : α → ExceptT ε m β} {a : α}
    (h : act x.run s = (.ok a, s')) : act (x >>= f).run s = act (f a).run s' := by
  change act (x.run >>= ExceptT.bindCont f) s = _
  rw [act_bind, h]
  rfl

theorem act_run_lift_bind [LawfulMonad m] {x : m α} {f : α → ExceptT ε m β} {a : α}
    (h : act x s = (a, s')) : act (liftM x >>= f).run s = act (f a).run s' := by
  apply act_run_bind
  change act (Except.ok <$> x) s = _
  rw [map_eq_pure_bind, act_bind, h, act_pure]

theorem act_run_pure (a : α) (s : σ) : act (pure a : ExceptT ε m α).run s = (.ok a, s) :=
  act_pure _ s

theorem act_adapt [LawfulMonad m] {ε' : Type} (x : ExceptT ε m α) (f : ε → ε') (s : σ) :
    act (x.adapt f).run s = ((act x.run s).1.mapError f, (act x.run s).2) := by
  change act (Except.mapError f <$> x.run) s = _
  rw [map_eq_pure_bind, act_bind, act_pure]

end Observed

/-- A run that is told of both states is a run of the watched machine. -/
theorem Machine.watch_of_act {ε α : Type} {x : ExceptT ε (StateT ReadLog (StateM Machine)) α}
    {r : Except ε α} {log log' : ReadLog} {w w' : Machine}
    (h : Observed.act x.run (log, w) = (r, log', w')) : watch x log w = ((r, log'), w') := by
  obtain ⟨hr, hrest⟩ := Prod.mk.inj h
  obtain ⟨hlog, hw⟩ := Prod.mk.inj hrest
  exact Prod.ext (Prod.ext hr hlog) hw

end LicenseDepot
