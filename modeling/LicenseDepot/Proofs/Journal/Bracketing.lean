import LicenseDepot.Proofs.Machine

/-!
# Events of measured operations

A measured operation says that it starts, does what it does, and says how it ended. What it reports
itself stands between the two events (`exists_run_measured`), so that the events of operations
within operations are nested as brackets are (`Bracketed`).
-/

namespace LicenseDepot

open Machine Numeral

/-- The event with which an operation starts. -/
structure IsStart (operation token : String) (c : Context) (e : Event) : Prop where
  name : e.name = s!"{operation}.started"
  level : e.recordLevel = .debug
  correlation : e.correlation = token
  context : c.members <:+: e.data
  distinct : (e.data.map Prod.fst).Nodup

/-- The event with which an operation ends, which tells of its failure if there is one. -/
structure IsEnd {ε : Type} [Reportable ε] (operation token : String) (c : Context)
    (failure : Option ε) (e : Event) : Prop where
  name : e.name = if failure.isSome then s!"{operation}.failed" else s!"{operation}.completed"
  level : e.recordLevel = if failure.isSome then .error else .debug
  correlation : e.correlation = token
  context : c.members <:+: e.data
  report : ∀ err ∈ failure, ("error_type", .text (Reportable.typeName err)) ∈ e.data ∧
    ("error_msg", .text (Reportable.message err)) ∈ e.data
  distinct : (e.data.map Prod.fst).Nodup

/-- The members of a context stand between other ones without a name that occurs twice, if that
holds of a context with a kind. -/
theorem Context.nodup_names (c : Context) (front back : List (String × Json)) {fs bs : List String}
    (hfront : front.map Prod.fst = fs) (hback : back.map Prod.fst = bs)
    (h : (fs ++ ["target", "mode", "license_id", "kind"] ++ bs).Nodup) :
    ((front ++ c.members ++ back).map Prod.fst).Nodup := by
  have hnames : (c.members.map Prod.fst).Sublist ["target", "mode", "license_id", "kind"] := by
    have hfew : ["target", "mode", "license_id"].Sublist
        ["target", "mode", "license_id", "kind"] := by decide
    rw [members, List.map_append]
    cases c.kind with
    | none => exact hfew
    | some k => exact List.Sublist.refl _
  rw [List.map_append, List.map_append, hfront, hback]
  exact h.sublist (((List.Sublist.refl fs).append hnames).append (List.Sublist.refl bs))

section Measured

variable {ε α : Type} [Reportable ε]

/-! What the two events say. -/

theorem isStart_startEvent (operation : String) (c : Context) (w : Machine) :
    IsStart operation (w.readings.token.headD "00000000") c (startEvent operation c w) where
  name := rfl
  level := rfl
  correlation := rfl
  context := (List.prefix_append _ _).isInfix
  distinct := c.nodup_names [] _ rfl rfl (by decide : ["target", "mode", "license_id", "kind",
    "start_ram_mb"].Nodup)

theorem isEnd_endEvent (operation token : String) (c : Context) (start startRam : Binary64)
    (failure : Option ε) (w : Machine) :
    IsEnd operation token c failure (endEvent operation token c start startRam failure w) := by
  cases failure with
  | none =>
    exact {
      name := rfl
      level := rfl
      correlation := rfl
      context := ⟨_, _, rfl⟩
      report := fun err herr => nomatch herr
      distinct := c.nodup_names _ _ rfl rfl (by decide : ["duration_sec", "end_ram_mb",
        "ram_delta_mb", "target", "mode", "license_id", "kind", "status"].Nodup) }
  | some e =>
    exact {
      name := rfl
      level := rfl
      correlation := rfl
      context := ⟨_, _, rfl⟩
      report := by
        rintro err ⟨⟩
        simp [endEvent, failedData]
      distinct := c.nodup_names _ _ rfl rfl (by decide : ["duration_sec", "crash_ram_mb", "target",
        "mode", "license_id", "kind", "error_type", "error_msg"].Nodup) }

/-- A measured operation does what it does on the same files, with an event before what it reports
and another one after it. -/
theorem exists_run_measured (operation : String) (subjects : List Subject)
    (act : ExceptT ε (StateM Machine) α) (w : Machine) :
    ∃ (token : String) (started ended : Event) (readings : Readings),
      let v : Machine := ⟨w.disk, w.journal ++ [.event started], readingsLeft w.readings⟩
      IsStart operation token (.ofSubjects subjects) started ∧
      IsEnd operation token (.ofSubjects subjects) (failure? (run act v).1) ended ∧
      run (measured operation subjects act) w = ((run act v).1,
        ⟨(run act v).2.disk, (run act v).2.journal ++ [.event ended], readings⟩) :=
  ⟨_, _, _, _, isStart_startEvent _ _ w, isEnd_endEvent _ _ _ _ _ _ _, run_measured_eq rfl⟩

end Measured

/-! Journals of operations within operations. -/

/-- Journals in which each operation that starts ends once, after those that start within it. -/
inductive Bracketed : List Notice → Prop
  | nil : Bracketed []
  | line {n : Notice} {rest : List Notice} : (∀ e, n ≠ .event e) → Bracketed rest →
      Bracketed (n :: rest)
  | operation {ε : Type} [Reportable ε] {name token : String} {c : Context} {failure : Option ε}
      {started ended : Event} {inner rest : List Notice} :
      IsStart name token c started → Bracketed inner → IsEnd name token c failure ended →
      Bracketed rest → Bracketed (.event started :: (inner ++ .event ended :: rest))

namespace Bracketed

variable {ns ms : List Notice}

theorem append (hns : Bracketed ns) (hms : Bracketed ms) : Bracketed (ns ++ ms) := by
  induction hns with
  | nil => exact hms
  | line hn _ ih => exact .line hn ih
  | operation hstart hinner hend _ _ ih =>
    rw [List.cons_append, List.append_assoc, List.cons_append]
    exact .operation hstart hinner hend ih

theorem of_forall_notMem (h : ∀ e, Notice.event e ∉ ns) : Bracketed ns := by
  induction ns with
  | nil => exact .nil
  | cons n rest ih =>
    refine .line (fun e heq => h e ?_) (ih fun e he => h e (List.mem_cons_of_mem n he))
    rw [heq]
    exact List.mem_cons_self

end Bracketed

end LicenseDepot
