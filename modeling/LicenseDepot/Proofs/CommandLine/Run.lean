import LicenseDepot.Proofs.CommandLine.Failure

/-!
# How a command ends

A command uses the catalogue and prints what comes of it. `Arguments.useCase` is the first part
alone. Whatever it fails with is printed and ends the command with 1, but for the one failure that
is not the depot's own: that the path which a command asks for is too long. Main statement:
`run_reports`.
-/

namespace LicenseDepot.CommandLine

open Store

variable {α : Type} {act : ExceptT Failure (StateM Machine) α}

/-! What a command does with the catalogue. -/

/-- What a command does with the catalogue, whatever comes of it. -/
def Arguments.useCase (a : Arguments) : ExceptT Failure (StateM Machine) Unit :=
  match a.command with
  | .list => do
    let _ ← Catalog.installed a.reference
  | .show text =>
    if a.single then do
      let _ ← Catalog.find a.reference none
    else
      match text.filter (· ≠ "") with
      | none => return
      | some text => do
        let _ ← Catalog.find a.reference (some (← parseId text))
  | .importFile file => do
    let _ ← Catalog.importFile a.reference (.ofText file)
  | .delete text => do
    let _ ← Catalog.uninstall a.reference (← parseId text)
  | .purge => do
    let _ ← Catalog.purge a.reference

/-- The path of the file that a command asks for before it reads or removes it. -/
def Arguments.asked? (a : Arguments) : Option Path :=
  match a.command with
  | .show text =>
    if a.single then (a.reference.fileOf none).toOption
    else (text.filter (· ≠ "")).bind fun text =>
      (LicenseId.ofString text).toOption.bind fun id => (a.reference.fileOf (some id)).toOption
  | .delete text => (LicenseId.ofString text).toOption.bind fun id =>
      (a.reference.fileOf (some id)).toOption
  | .list | .importFile _ | .purge => none

theorem asks_useCase (a : Arguments) : Asks a.useCase a.asked? := by
  have hpure : ∀ {γ : Type} (_ : γ),
      FailsReported (pure () : ExceptT Failure (StateM Machine) Unit) :=
    fun _ => ends_pure trivial
  unfold Arguments.useCase Arguments.asked?
  cases a.command with
  | list =>
    exact (FailsReported.asks ((failsReported_licenses _).bind fun _ =>
      (ends_lift _).bind fun _ => ends_pure trivial)).bind hpure
  | «show» text =>
    dsimp only
    split
    · exact (asks_find _ none).bind hpure
    · cases text.filter (· ≠ "") with
      | none => exact FailsReported.asks (hpure ())
      | some text => exact asks_parseId fun id => (asks_find _ (some id)).bind hpure
  | importFile file => exact (FailsReported.asks (failsReported_importFile _ _)).bind hpure
  | delete text => exact asks_parseId fun id => (asks_uninstall _ id).bind hpure
  | purge =>
    exact (FailsReported.asks ((failsReported_delete _ none).bind fun _ => ends_lift _)).bind
      hpure

/-- Whether a command fails as its use of the catalogue does, and otherwise ends with 0, 1 or 2. -/
def Mirrors (act : ExceptT Failure (StateM Machine) Nat)
    (core : ExceptT Failure (StateM Machine) Unit) : Prop :=
  ∀ w, (∀ e v, Machine.run core w = (.error e, v) → Machine.run act w = (.error e, v)) ∧
    ∀ v, Machine.run core w = (.ok (), v) → ∃ n v', Machine.run act w = (.ok n, v') ∧ n ≤ 2

/-- An operation that never fails, and whose results are 0, 1 or 2. -/
abbrev Answers (act : ExceptT Failure (StateM Machine) Nat) : Prop :=
  Ends act (· ≤ 2) fun _ => False

theorem mirrors_pure {act : ExceptT Failure (StateM Machine) Nat} (h : Answers act) :
    Mirrors act (pure ()) := by
  intro w
  refine ⟨fun e v hrun => (nomatch hrun), fun v _ => ?_⟩
  obtain ⟨hdone, hfailed⟩ := h w
  rcases hrun : Machine.run act w with ⟨x, v'⟩
  rw [hrun] at hdone hfailed
  cases x with
  | error e => exact (hfailed e rfl).elim
  | ok n => exact ⟨n, v', rfl, hdone n rfl⟩

theorem Mirrors.after {f : α → ExceptT Failure (StateM Machine) Nat}
    {g : α → ExceptT Failure (StateM Machine) Unit} (h : ∀ a, Mirrors (f a) (g a)) :
    Mirrors (act >>= f) (act >>= g) := by
  intro w
  rcases hrun : Machine.run act w with ⟨x, v⟩
  cases x with
  | error e =>
    rw [Machine.run_bind_error hrun, Machine.run_bind_error hrun]
    refine ⟨fun e' v' heq => ?_, fun v' heq => (nomatch heq)⟩
    cases heq
    rfl
  | ok a =>
    rw [Machine.run_bind_ok hrun, Machine.run_bind_ok hrun]
    exact h a v

theorem mirrors_runShow (r : Reference) (id : Option LicenseId) :
    Mirrors (runShow r id) (do let _ ← Catalog.find r id) := by
  refine Mirrors.after fun found => mirrors_pure ?_
  cases found with
  | none => exact (ends_lift _).bind fun _ => ends_pure (by decide)
  | some l =>
    refine (ends_lift _).bind fun _ => Ends.bind ?_ fun _ => ?_
    · exact ends_forIn fun _ _ => (ends_lift _).bind fun _ => ends_pure trivial
    · split
      · exact (ends_lift _).bind fun _ => ends_pure (by decide)
      · exact ends_pure (by decide)

theorem mirrors_runList (r : Reference) :
    Mirrors (runList r) (do let _ ← Catalog.installed r) := by
  refine Mirrors.after fun found => mirrors_pure ?_
  split
  · exact (ends_lift _).bind fun _ => ends_pure (by decide)
  · refine (ends_lift _).bind fun _ => (ends_lift _).bind fun _ => Ends.bind ?_ fun _ => ?_
    · exact ends_forIn fun _ _ => (ends_lift _).bind fun _ => ends_pure trivial
    · exact ends_pure (by decide)

theorem mirrors_runCommand (a : Arguments) : Mirrors (runCommand a) a.useCase := by
  have hsaid : ∀ line : String, Answers (do say line; return 0) :=
    fun _ => (ends_lift _).bind fun _ => ends_pure (by decide)
  unfold runCommand Arguments.useCase
  cases a.command with
  | list => exact mirrors_runList _
  | «show» text =>
    dsimp only
    split
    · exact mirrors_runShow _ none
    · have hcomplained : ∀ line : String, Answers (do complain line; return 2) :=
        fun _ => (ends_lift _).bind fun _ => ends_pure (by decide)
      -- An empty identifier counts as a missing one, for the command as for its use case.
      rcases text with _ | text
      · exact mirrors_pure (hcomplained _)
      · by_cases htext : text = ""
        · subst htext
          exact mirrors_pure (hcomplained _)
        · have hfilter : (some text).filter (· ≠ "") = some text := by simp [htext]
          rw [hfilter]
          dsimp only
          split
          · contradiction
          · rename_i heq
            exact absurd (Option.some.inj heq) htext
          · rename_i heq
            cases heq
            exact Mirrors.after fun id => mirrors_runShow _ (some id)
  | importFile file => exact Mirrors.after fun l => mirrors_pure (hsaid _)
  | delete text => exact Mirrors.after fun id => Mirrors.after fun removed => mirrors_pure (hsaid _)
  | purge => exact Mirrors.after fun _ => mirrors_pure (hsaid _)

/-- What comes of running a command: a failure that the depot reports is printed. -/
theorem run_run (a : Arguments) (w : Machine) :
    Machine.run (run (m := StateM Machine) a) w
      = match Machine.run (runCommand (m := StateM Machine) a) w with
        | (.ok n, v) => (.ok n, v)
        | (.error e, v) =>
          if isReported e then (.ok 1, v.noting (.complaint s!"Error: {e.message}"))
          else (.error e, v) := by
  unfold run
  rcases hrun : Machine.run (runCommand (m := StateM Machine) a) w with ⟨x, v⟩
  rw [Machine.run_tryCatch, hrun]
  cases x with
  | ok n => rfl
  | error e =>
    dsimp only
    split
    · rfl
    · rfl

/-- Whether a command ends with 0, 1 or 2, and with 1 and a complaint about the failure if its use
of the catalogue fails. -/
def Reports (a : Arguments) (w : Machine) : Prop :=
  ∃ n w', Machine.run (run a) w = (.ok n, w') ∧ n ≤ 2 ∧
    ∀ e v, Machine.run a.useCase w = (.error e, v) →
      n = 1 ∧ w' = v.noting (.complaint s!"Error: {e.message}")

/-- A command fails if the file system refuses the path that it asks for. -/
theorem fails_of_too_long {a : Arguments} {w : Machine} {p : Path} (hp : a.asked? = some p)
    (hholds : w.disk.holds p = .error (.refused .nameTooLong p)) :
    ∃ w', Machine.run (run a) w = (.error (.access (.refused .nameTooLong p)), w') := by
  have hcore := (asks_useCase a w).2 p hp hholds
  have hcommand := (mirrors_runCommand a w).1 _ _ (Prod.ext hcore rfl)
  have hrun := run_run a w
  rw [hcommand] at hrun
  exact ⟨_, hrun⟩

theorem not_reports_of_too_long {a : Arguments} {w : Machine} {p : Path} (hp : a.asked? = some p)
    (hholds : w.disk.holds p = .error (.refused .nameTooLong p)) : ¬ Reports a w := by
  rintro ⟨n, w', hn, -⟩
  obtain ⟨v, hrun⟩ := fails_of_too_long hp hholds
  rw [hrun] at hn
  cases hn

/-- A command does what it should if the file system does not refuse the path that it asks for. -/
theorem reports_of_not_too_long {a : Arguments} {w : Machine}
    (hno : ∀ p, a.asked? = some p → w.disk.holds p ≠ .error (.refused .nameTooLong p)) :
    Reports a w := by
  obtain ⟨hfails, hends⟩ := mirrors_runCommand a w
  have hrun := run_run a w
  unfold Reports
  rcases hcore : Machine.run a.useCase w with ⟨x, v⟩
  cases x with
  | ok _ =>
    obtain ⟨n, v', hcommand, hn⟩ := hends v hcore
    rw [hcommand] at hrun
    exact ⟨n, v', hrun, hn, fun e u heq => nomatch heq⟩
  | error e =>
    have hreported : isReported e = true := by
      have hfailed := (asks_useCase a w).1 e
      rw [hcore] at hfailed
      rcases hfailed rfl with hreported | ⟨p, hp, hholds, -⟩
      · exact hreported
      · exact absurd hholds (hno p hp)
    rw [hfails e v hcore] at hrun
    dsimp only at hrun
    rw [hreported, if_pos rfl] at hrun
    refine ⟨1, _, hrun, by decide, fun e' u heq => ?_⟩
    cases heq
    exact ⟨rfl, rfl⟩

/-- A command ends with 0, 1 or 2, and if its use of the catalogue fails it prints that and ends
with 1, unless the file system refuses as too long the path that it asks for. Then this is not
printed, and what the command fails with is passed on. A command that removes a store would also
fail so where directories lie too deep in each other for a bounded recursion, which is not modelled
(see `Disk.removeTree`). -/
theorem run_reports (a : Arguments) (w : Machine) :
    (Reports a w ↔
      ∀ p, a.asked? = some p → w.disk.holds p ≠ .error (.refused .nameTooLong p)) ∧
    ∀ p, a.asked? = some p → w.disk.holds p = .error (.refused .nameTooLong p) →
      ∃ w', Machine.run (run a) w = (.error (.access (.refused .nameTooLong p)), w') :=
  ⟨⟨fun hreports _ hp hholds => not_reports_of_too_long hp hholds hreports,
    reports_of_not_too_long⟩, fun _ => fails_of_too_long⟩

/-! A store whose name is too long. -/

theorem classifyAll_cons_plain {word : String} (h : word.toList.head? ≠ some '-')
    (options : Spellings) (rest : List String) :
    classifyAll options (word :: rest)
      = (classifyAll options rest).map fun words => (word, .plain) :: words := by
  have hseparator : word ≠ "--" := by
    rintro rfl
    exact h (by decide)
  have hplain : classify options word = .ok .plain := if_pos (.inl h)
  rw [classifyAll, if_neg hseparator, hplain]
  cases classifyAll options rest <;> rfl

/-- A store and an identifier that do not begin with a hyphen are taken for what they are. -/
theorem read_show {s id : String} (hs : s.toList.head? ≠ some '-')
    (hid : id.toList.head? ≠ some '-') :
    Arguments.read ["--store", s, "show", id] = .ok ⟨s, false, false, .show id⟩ := by
  have hstore : classify generalOptions "--store" = .ok (.option .store false none) := by decide
  have hwords : classifyAll generalOptions ["--store", s, "show", id]
      = .ok [("--store", .option .store false none), (s, .plain), ("show", .plain),
        (id, .plain)] := by
    rw [classifyAll, if_neg (by decide), hstore, classifyAll_cons_plain hs,
      classifyAll_cons_plain (by decide), classifyAll_cons_plain hid]
    rfl
  have hcommand : readCommand "show" [id] = .ok (.show id, []) := by
    rw [readCommand, classifyAll_cons_plain hid]
    rfl
  rw [Arguments.read, hwords]
  change (readCommand "show" [id] >>= _) = _
  rw [hcommand]
  rfl

/-- A machine without files. -/
def bareMachine : Machine := ⟨⟨.empty, []⟩, [], {}⟩

/-- The arguments for showing a licence of a store whose name has 256 bytes. -/
def longStore : Arguments :=
  ⟨Path.nameOfLength 256, false, false, .show "00000000-0000-0000-0000-000000000000"⟩

/-- The path of the file that is asked for. -/
def longPath : Path :=
  .child (.repeated (Path.nameOfLength 256) 1) (LicenseId.fileName ⟨0⟩)

theorem asked_longStore : longStore.asked? = some longPath := by
  have hid : (LicenseId.ofString "00000000-0000-0000-0000-000000000000").toOption = some ⟨0⟩ := by
    decide +kernel
  have hstore : Path.ofText (Path.nameOfLength 256) = .repeated (Path.nameOfLength 256) 1 :=
    Path.ofText_nameOfLength 255
  change ((LicenseId.ofString "00000000-0000-0000-0000-000000000000").toOption.bind fun id =>
    some (Path.child (.ofText (Path.nameOfLength 256)) id.fileName)) = _
  rw [hid, hstore]
  rfl

theorem holds_longPath :
    bareMachine.disk.holds longPath = .error (.refused .nameTooLong longPath) := by
  have hname := Path.byteLength_nameOfLength 256
  have hstore : Path.byteLength (Path.repeated (Path.nameOfLength 256) 1).toText = 256 := by
    have h := Path.byteLength_repeated (Path.nameOfLength 256) 0
    rw [hname] at h
    exact h
  have hlength : Path.byteLength longPath.toText = 301 := by
    rw [longPath, Path.byteLength_toText_child (by decide), LicenseId.byteLength_fileName, hstore]
  have hcheck : Disk.checkPath longPath = .ok () := by
    refine Disk.checkPath_of_lt (Disk.hasNul_child ?_ (LicenseId.nul_notMem_fileName ⟨0⟩)) ?_
    · have hnul := Path.notMem_nameOfLength (c := '\x00') (by decide) 256
      simp [Path.hasNul, Path.repeated, hnul]
    · rw [hlength]
      decide
  have hsteps : Step.ofPath longPath
      = .down (Path.nameOfLength 256) :: [.down (LicenseId.fileName ⟨0⟩)] := by
    rw [longPath, Step.ofPath_child (LicenseId.fileName_ne_up ⟨0⟩)]
    simp [Step.ofPath, Path.repeated, Path.nameOfLength_ne_up]
  refine Disk.holds_of_long_name hcheck rfl hsteps ?_
  rw [hname]
  decide

/-- A name that is too long is not complained about: the command fails as the file system does. -/
theorem run_reports_longStore :
    Arguments.read ["--store", Path.nameOfLength 256, "show",
      "00000000-0000-0000-0000-000000000000"] = .ok longStore ∧
    ¬ Reports longStore bareMachine ∧
    ∃ p w', Machine.run (run longStore) bareMachine
      = (.error (.access (.refused .nameTooLong p)), w') := by
  have hname : (Path.nameOfLength 256).toList.head? ≠ some '-' := by
    rw [Path.nameOfLength, String.toList_ofList, List.replicate_succ]
    decide
  refine ⟨read_show hname (by decide), not_reports_of_too_long asked_longStore holds_longPath, ?_⟩
  obtain ⟨w', hrun⟩ := fails_of_too_long asked_longStore holds_longPath
  exact ⟨_, w', hrun⟩

end LicenseDepot.CommandLine
