import LicenseDepot.Proofs.Journal.Bracketing
import LicenseDepot.Proofs.Store.Reading

/-!
# Events of a store

Storing and retrieving a licence are measured. Nothing that they do within is, so that each call
leaves an event, some lines and another event in the journal, whatever the files are, and a run of
calls leaves these one after another. Main statement: `measured_is_bracketed`.
-/

namespace LicenseDepot

namespace Machine

variable {ε α β : Type}

/-- Whether all that an operation does to the journal is to add lines that are no events. -/
def AddsLines (x : StateM Machine α) : Prop :=
  ∀ w, ∃ ns, (x w).2.journal = w.journal ++ ns ∧ ∀ e, Notice.event e ∉ ns

theorem composes_addsLines :
    Composes fun w v => ∃ ns, v.journal = w.journal ++ ns ∧ ∀ e, Notice.event e ∉ ns where
  refl w := ⟨[], (List.append_nil _).symm, fun _ => List.not_mem_nil⟩
  trans := by
    rintro u v w ⟨ns, hns, hlines⟩ ⟨ms, hms, hlines'⟩
    refine ⟨ns ++ ms, ?_, fun e he => (List.mem_append.1 he).elim (hlines e) (hlines' e)⟩
    rw [hms, hns, List.append_assoc]

theorem addsLines_of_journal_eq {x : StateM Machine α} (h : ∀ w, (x w).2.journal = w.journal) :
    AddsLines x :=
  fun w => ⟨[], by rw [h, List.append_nil], fun _ => List.not_mem_nil⟩

theorem addsLines_pure (a : α) : AddsLines (pure a) :=
  addsLines_of_journal_eq fun _ => rfl

theorem AddsLines.run_bind {act : ExceptT ε (StateM Machine) α}
    {f : α → ExceptT ε (StateM Machine) β} (hact : AddsLines act.run)
    (hf : ∀ a, AddsLines (f a).run) : AddsLines (act >>= f).run :=
  composes_addsLines.run_bind hact hf

theorem AddsLines.lift {x : StateM Machine α} (hx : AddsLines x) :
    AddsLines (liftM x : ExceptT ε (StateM Machine) α).run :=
  composes_addsLines.bind hx fun _ => addsLines_pure _

theorem addsLines_change (f : Disk → Except AccessFault Disk) : AddsLines (Machine.change f) := by
  refine addsLines_of_journal_eq fun w => ?_
  unfold Machine.change
  cases f w.disk <;> rfl

/-- What leaves the machine as it is adds nothing to the journal. -/
theorem addsLines_of_run {act : ExceptT ε (StateM Machine) α} {r : Machine → Except ε α}
    (h : ∀ w, run act w = (r w, w)) : AddsLines act.run :=
  addsLines_of_journal_eq fun w => congrArg (·.2.journal) (h w)

theorem run_map (f : α → β) (act : ExceptT ε (StateM Machine) α) (w : Machine) :
    run (f <$> act) w = ((run act w).1.map f, (run act w).2) := by
  rcases h : run act w with ⟨r, v⟩
  rw [map_eq_pure_bind]
  cases r with
  | ok a => rw [run_bind_ok h]; rfl
  | error e => rw [run_bind_error h]; rfl

end Machine

namespace Store

open Machine

/-- A call of a store that is measured. -/
inductive Request
  | store (r : Reference) (l : License)
  | retrieve (r : Reference) (id : Option LicenseId)

namespace Request

/-- What the call is called in events. -/
def operation : Request → String
  | .store .. => "license_store.store"
  | .retrieve .. => "license_store.retrieve"

/-- The values that the call is made with. -/
def subjects : Request → List Subject
  | .store r l => [.reference r, .license l]
  | .retrieve r id => .reference r :: (id.map Subject.id).toList

/-- What the call does; storing a licence answers nothing. -/
def perform : Request → ExceptT Failure (StateM Machine) (Option License)
  | .store r l => (fun _ => none) <$> Store.store r l
  | .retrieve r id => Store.retrieve r id

/-- What a call adds to the journal that fails or does not: an event at the start, lines, and an
event at the end that tells of the failure. -/
inductive IsJournal (q : Request) (failure : Option Failure) : List Notice → Prop
  | intro {token : String} {started ended : Event} {lines : List Notice} :
      IsStart q.operation token (.ofSubjects q.subjects) started →
      (∀ e, Notice.event e ∉ lines) →
      IsEnd q.operation token (.ofSubjects q.subjects) failure ended →
      IsJournal q failure (.event started :: (lines ++ [.event ended]))

theorem IsJournal.bracketed {q : Request} {failure : Option Failure} {ns : List Notice}
    (h : q.IsJournal failure ns) : Bracketed ns := by
  obtain ⟨hstart, hlines, hend⟩ := h
  exact .operation hstart (.of_forall_notMem hlines) hend .nil

end Request

theorem addsLines_orFail {ε α : Type} (wrap : ε → Failure) (x : Except ε α) :
    AddsLines (orFail (m := StateM Machine) wrap x).run :=
  addsLines_of_run (run_orFail wrap x)

theorem addsLines_storeNotice (level : Level) (message : String) :
    AddsLines (storeNotice level message) :=
  fun _ => ⟨[.record .store level message], rfl, by simp⟩

/-- The lines of a measured operation stand between its two events. -/
theorem exists_journal_of_addsLines {α : Type} {q : Request}
    {act : ExceptT Failure (StateM Machine) α} (hact : AddsLines act.run) (w : Machine) :
    ∃ ns, (run (measured q.operation q.subjects act) w).2.journal = w.journal ++ ns ∧
      q.IsJournal (failure? (run (measured q.operation q.subjects act) w).1) ns := by
  obtain ⟨token, started, ended, _, hstart, hend, hrun⟩ :=
    exists_run_measured q.operation q.subjects act w
  obtain ⟨lines, hlines, hplain⟩ :=
    hact ⟨w.disk, w.journal ++ [.event started], readingsLeft w.readings⟩
  rw [hrun]
  refine ⟨.event started :: (lines ++ [.event ended]), ?_, .intro hstart hplain hend⟩
  show (act.run _).2.journal ++ [.event ended] = _
  rw [hlines, List.append_assoc, List.append_assoc, List.singleton_append]

/-- A call leaves its own journal behind what was there. -/
theorem exists_journal_of_perform (q : Request) (w : Machine) :
    ∃ ns, (run q.perform w).2.journal = w.journal ++ ns ∧
      q.IsJournal (failure? (run q.perform w).1) ns := by
  cases q with
  | store r l =>
    rw [Request.perform, run_map, failure?_map]
    refine exists_journal_of_addsLines (q := .store r l) ?_ w
    refine (addsLines_orFail _ _).run_bind fun p => (addsLines_orFail _ _).run_bind fun data =>
      (addsLines_change _).lift.run_bind fun written => ?_
    cases written with
    | ok _ => exact (addsLines_storeNotice _ _).lift
    | error e => cases e <;> exact addsLines_pure _
  | retrieve r id =>
    refine exists_journal_of_addsLines (q := .retrieve r id) ?_ w
    refine (addsLines_of_run (run_fileOf r id)).run_bind fun p =>
      (addsLines_of_run (run_holds p)).run_bind fun there => ?_
    cases there with
    | true => exact (addsLines_of_run (run_readLicense p)).run_bind fun _ => addsLines_pure _
    | false => exact (addsLines_storeNotice _ _).lift.run_bind fun _ => addsLines_pure _

/-- Makes some calls, each of them on files of its own, and gathers the results. -/
def performAll : List (Disk × Request) → Machine → List (Except Failure (Option License)) × Machine
  | [], w => ([], w)
  | (disk, q) :: rest, w =>
    let answer := run q.perform { w with disk }
    let answers := performAll rest answer.2
    (answer.1 :: answers.1, answers.2)

/-- A run of calls leaves the journals of the calls, one after another. -/
theorem exists_journal_of_performAll (calls : List (Disk × Request)) (w : Machine) :
    ∃ answers : List (Except Failure (Option License) × List Notice),
      (performAll calls w).1 = answers.map Prod.fst ∧
      (performAll calls w).2.journal = w.journal ++ answers.flatMap Prod.snd ∧
      List.Forall₂ (fun call answer => call.2.IsJournal (failure? answer.1) answer.2)
        calls answers := by
  induction calls generalizing w with
  | nil => exact ⟨[], rfl, (List.append_nil _).symm, .nil⟩
  | cons call rest ih =>
    obtain ⟨disk, q⟩ := call
    obtain ⟨ns, hns, hjournal⟩ := exists_journal_of_perform q { w with disk }
    obtain ⟨answers, hresults, hnss, hjournals⟩ := ih (run q.perform { w with disk }).2
    refine ⟨((run q.perform { w with disk }).1, ns) :: answers, ?_, ?_, .cons hjournal hjournals⟩
    · rw [performAll, hresults]
      rfl
    · rw [performAll, hnss, hns, List.append_assoc, List.flatMap_cons]

theorem bracketed_flatMap {calls : List (Disk × Request)}
    {answers : List (Except Failure (Option License) × List Notice)}
    (h : List.Forall₂ (fun call answer => call.2.IsJournal (failure? answer.1) answer.2)
      calls answers) : Bracketed (answers.flatMap Prod.snd) := by
  induction h with
  | nil => exact .nil
  | cons hjournal _ ih => exact hjournal.bracketed.append ih

/-- A measured operation has the result and the files that it has without measurement. What it adds
to the journal itself stands between two events that carry one token and the context of the values
it is called with: the first says that it starts, the second one that it is completed or, with the
failure, that it has failed. If the journal within is bracketed, so is the whole. Hence in any run
of calls of a store, whatever the files are, each call adds one event when it starts, one when it
ends that tells of its own result, and no other events, and the run adds a bracketed journal. -/
theorem measured_is_bracketed :
    (∀ {ε α : Type} [Reportable ε] (operation : String) (subjects : List Subject)
      (act : ExceptT ε (StateM Machine) α) (w : Machine),
      ∃ (token : String) (started ended : Event) (readings : Readings),
        let v : Machine := ⟨w.disk, w.journal ++ [.event started], readingsLeft w.readings⟩
        IsStart operation token (.ofSubjects subjects) started ∧
        IsEnd operation token (.ofSubjects subjects) (failure? (run act v).1) ended ∧
        run (measured operation subjects act) w = ((run act v).1,
          ⟨(run act v).2.disk, (run act v).2.journal ++ [.event ended], readings⟩) ∧
        ∀ inner, (run act v).2.journal = v.journal ++ inner →
          (run (measured operation subjects act) w).2.journal
            = w.journal ++ .event started :: (inner ++ [.event ended]) ∧
          (Bracketed inner → Bracketed (.event started :: (inner ++ [.event ended])))) ∧
    ∀ (calls : List (Disk × Request)) (w : Machine),
      ∃ answers : List (Except Failure (Option License) × List Notice),
        (performAll calls w).1 = answers.map Prod.fst ∧
        (performAll calls w).2.journal = w.journal ++ answers.flatMap Prod.snd ∧
        List.Forall₂ (fun call answer => call.2.IsJournal (failure? answer.1) answer.2)
          calls answers ∧
        Bracketed (answers.flatMap Prod.snd) := by
  constructor
  · intro ε α _ operation subjects act w
    obtain ⟨token, started, ended, readings, hstart, hend, hrun⟩ :=
      exists_run_measured operation subjects act w
    refine ⟨token, started, ended, readings, hstart, hend, hrun,
      fun inner hinner => ⟨?_, fun hbracketed => .operation hstart hbracketed hend .nil⟩⟩
    rw [hrun, hinner, List.append_assoc, List.append_assoc, List.singleton_append]
  · intro calls w
    obtain ⟨answers, hresults, hjournal, hjournals⟩ := exists_journal_of_performAll calls w
    exact ⟨answers, hresults, hjournal, hjournals, bracketed_flatMap hjournals⟩

/-- An operation within another one, where both fail. -/
theorem measured_is_bracketed_nested :
    ∃ started started' ended' ended : Event,
      (run (measured "outer" [] (measured "inner" []
          (throw (.access .nul) : ExceptT Failure (StateM Machine) Unit)))
        ⟨.ofFile "a" [], [], {}⟩).2.journal
        = [.event started, .event started', .event ended', .event ended] ∧
      Bracketed [.event started, .event started', .event ended', .event ended] := by
  obtain ⟨_, started, ended, _, -, -, -, houter⟩ := measured_is_bracketed.1 "outer" []
    (measured "inner" [] (throw (.access .nul) : ExceptT Failure (StateM Machine) Unit))
    ⟨.ofFile "a" [], [], {}⟩
  obtain ⟨_, started', ended', _, -, -, -, hinner⟩ := measured_is_bracketed.1 "inner" []
    (throw (.access .nul) : ExceptT Failure (StateM Machine) Unit)
    ⟨.ofFile "a" [], [.event started], readingsLeft {}⟩
  obtain ⟨hjournal', hbracketed'⟩ := hinner [] (List.append_nil _).symm
  obtain ⟨hjournal, hbracketed⟩ := houter [.event started', .event ended'] hjournal'
  exact ⟨started, started', ended', ended, hjournal, hbracketed (hbracketed' .nil)⟩

end Store

end LicenseDepot
