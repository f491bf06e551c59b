import LicenseDepot.Proofs.Store.Enumeration

/-!
# Iterators, whatever is done with them

A session with an iterator is any sequence of questions whether there is another licence, requests
to hand out the next one or all of them, attempts to remove one, and things that happen elsewhere
meanwhile. How a file is read is left open: a read gives a licence or fails with anything, and may
depend on when it is made. What is kept through a session is that the files that have been read and
those to come are the files of the iterator, that the licences handed out and the one that is
pending are what has been read from them, and that there has been one warning for each of them that
could not be read. Main statement: `session_run`.
-/

namespace LicenseDepot

namespace LicenseIterator

open Machine

/-- What is around an iterator: whatever reads depend on, and the reads made, first ones first. -/
structure Scene (σ ε : Type) where
  state : σ
  reads : List (Path × Except ε License)

instance {m : Type → Type} [Monad m] [Host m] {σ ε : Type} : Host (StateT (Scene σ ε) m) :=
  Host.beside (Scene σ ε)

variable {σ ε : Type}

/-- Reads a file as a function says, and notes the read. -/
def reading (f : Path → σ → Except ε License × σ) (p : Path) :
    ExceptT ε (StateT (Scene σ ε) (StateM Machine)) License :=
  ExceptT.mk fun scene w =>
    let (r, state) := f p scene.state
    ((r, ⟨state, scene.reads ++ [(p, r)]⟩), w)

/-- An iterator with what is around it, and the licences that it has handed out. -/
structure Session (σ ε : Type) where
  iterator : LicenseIterator
  scene : Scene σ ε
  machine : Machine
  handed : List License

/-- What is done with an iterator, or elsewhere. -/
inductive Move (σ : Type)
  | hasNext
  | next
  | drain
  | remove
  | meanwhile (change : σ → σ)

/-- What an iterator answers. -/
inductive Reply
  | has (more : Bool)
  | next (r : Except Failure License)
  | all (ls : List License)
  | removed (r : Except Failure Unit)
  | nothing

namespace Session

/-- Before anything is done with the iterator of some files. -/
def start (files : List Path) (state : σ) (w : Machine) : Session σ ε :=
  ⟨.ofFiles files, ⟨state, []⟩, w, []⟩

/-- The session after an operation on its iterator that hands out some licences. -/
def after {α : Type} (s : Session σ ε) (handed : α → List License)
    (x : ((α × LicenseIterator) × Scene σ ε) × Machine) : Session σ ε :=
  ⟨x.1.1.2, x.1.2, x.2, s.handed ++ handed x.1.1.1⟩

variable (f : Path → σ → Except ε License × σ)

/-- What an iterator answers to a move, and the session after it. -/
def step (s : Session σ ε) : Move σ → Reply × Session σ ε
  | .hasNext =>
    let x := s.iterator.hasNext (reading f) s.scene s.machine
    (.has x.1.1.1, s.after (fun _ => []) x)
  | .next =>
    let x := s.iterator.next (reading f) s.scene s.machine
    (.next x.1.1.1, s.after (fun r => r.toOption.toList) x)
  | .drain =>
    let x := s.iterator.drain (reading f) s.scene s.machine
    (.all x.1.1.1, s.after id x)
  | .remove => (.removed s.iterator.remove, s)
  | .meanwhile change => (.nothing, { s with scene.state := change s.scene.state })

/-- The session after some moves. -/
def run (s : Session σ ε) (moves : List (Move σ)) : Session σ ε :=
  moves.foldl (fun s move => (s.step f move).2) s

/-- Whether an iterator has come to the end of its files and has nothing to hand out. -/
def IsExhausted (s : Session σ ε) : Prop :=
  s.iterator = ⟨[], none⟩

/-- What has been read from files that could be read. -/
def readable (reads : List (Path × Except ε License)) : List License :=
  reads.filterMap fun read => read.2.toOption

/-- The warnings about files that could not be read. -/
def warnings (reads : List (Path × Except ε License)) : List Notice :=
  (reads.filter fun read => read.2.toOption.isNone).map fun read => Store.skipNotice read.1

/-- What is kept through a session with the iterator of some files. -/
structure Consistent (files : List Path) (w : Machine) (s : Session σ ε) : Prop where
  /-- Files are read in order, each of them once. -/
  files : s.scene.reads.map Prod.fst ++ s.iterator.files = files
  /-- What has been read is handed out or pending, in order. -/
  handed : s.handed ++ s.iterator.pending.toList = readable s.scene.reads
  /-- There has been a warning for each file that could not be read, and nothing else. -/
  machine : s.machine = Machine.reporting w (warnings s.scene.reads)

end Session

/-- What looking for the next licence in some files reads, and the iterator after it: files that
cannot be read, up to and including the first one that can. -/
inductive Looks : List Path → List (Path × Except ε License) → LicenseIterator → Prop
  | none : Looks [] [] ⟨[], .none⟩
  | found (p : Path) (l : License) (rest : List Path) :
    Looks (p :: rest) [(p, .ok l)] ⟨rest, some l⟩
  | skipped (p : Path) (e : ε) {rest : List Path} {reads : List (Path × Except ε License)}
      {it : LicenseIterator} (hrest : Looks rest reads it) :
      Looks (p :: rest) ((p, .error e) :: reads) it

namespace Looks

variable {files : List Path} {reads : List (Path × Except ε License)} {it : LicenseIterator}

theorem files_eq (h : Looks files reads it) : reads.map Prod.fst ++ it.files = files := by
  induction h with
  | none => rfl
  | found => rfl
  | skipped p e _ ih => rw [List.map_cons, List.cons_append, ih]

theorem readable_eq (h : Looks files reads it) : Session.readable reads = it.pending.toList := by
  induction h with
  | none => rfl
  | found => rfl
  | skipped p e _ ih => exact ih

/-- Nothing has been found only if there are no more files. -/
theorem files_of_pending (h : Looks files reads it) (hnone : it.pending = .none) :
    it = ⟨[], .none⟩ := by
  induction h with
  | none => rfl
  | found => cases hnone
  | skipped p e _ ih => exact ih hnone

end Looks

variable {f : Path → σ → Except ε License × σ}

theorem reading_apply (p : Path) (scene : Scene σ ε) (w : Machine) :
    (reading f p).run scene w
      = (((f p scene.state).1, ⟨(f p scene.state).2, scene.reads ++ [(p, (f p scene.state).1)]⟩),
        w) := rfl

theorem exists_looks (files : List Path) (scene : Scene σ ε) (w : Machine) :
    ∃ it state reads,
      findNext (reading f) files scene w
        = ((it, ⟨state, scene.reads ++ reads⟩), Machine.reporting w (Session.warnings reads)) ∧
      Looks files reads it := by
  induction files generalizing scene w with
  | nil =>
    refine ⟨⟨[], none⟩, scene.state, [], ?_, .none⟩
    rw [List.append_nil]
    show _ = ((_, scene), Machine.reporting w [])
    rw [Machine.reporting_nil]
    rfl
  | cons p rest ih =>
    have hread := reading_apply (f := f) p scene w
    rcases hr : f p scene.state with ⟨r, state⟩
    rw [hr] at hread
    cases r with
    | ok l =>
      refine ⟨⟨rest, some l⟩, state, [(p, .ok l)], ?_, .found p l rest⟩
      rw [findNext, bind_watched hread]
      exact congrArg (Prod.mk _) (Machine.reporting_nil w).symm
    | error e =>
      obtain ⟨it, state', reads, hrest, hlooks⟩ :=
        ih ⟨state, scene.reads ++ [(p, .error e)]⟩ (w.noting (Store.skipNotice p))
      refine ⟨it, state', (p, .error e) :: reads, ?_, .skipped p e hlooks⟩
      rw [findNext, bind_watched hread]
      show findNext (reading f) rest ⟨state, scene.reads ++ [(p, .error e)]⟩
        (w.noting (Store.skipNotice p)) = _
      rw [hrest]
      simp [Machine.reporting, Machine.noting, Session.warnings, Except.toOption]

/-- Reading all files reads each of them once, in order. -/
theorem exists_readAll (files : List Path) (scene : Scene σ ε) (w : Machine) :
    ∃ state reads,
      readAll (reading f) files scene w
        = ((Session.readable reads, ⟨state, scene.reads ++ reads⟩),
          Machine.reporting w (Session.warnings reads)) ∧
      reads.map Prod.fst = files := by
  induction files generalizing scene w with
  | nil =>
    refine ⟨scene.state, [], ?_, rfl⟩
    rw [List.append_nil]
    show _ = ((_, scene), Machine.reporting w [])
    rw [Machine.reporting_nil]
    rfl
  | cons p rest ih =>
    have hread := reading_apply (f := f) p scene w
    rcases hr : f p scene.state with ⟨r, state⟩
    rw [hr] at hread
    cases r with
    | ok l =>
      obtain ⟨state', reads, hrest, hfiles⟩ := ih ⟨state, scene.reads ++ [(p, .ok l)]⟩ w
      refine ⟨state', (p, .ok l) :: reads, ?_, congrArg (List.cons p) hfiles⟩
      rw [readAll, bind_watched hread]
      show (readAll (reading f) rest >>= fun ls => pure (l :: ls))
        ⟨state, scene.reads ++ [(p, .ok l)]⟩ w = _
      rw [bind_watched hrest]
      simp [Session.readable, Session.warnings, Except.toOption]
      rfl
    | error e =>
      obtain ⟨state', reads, hrest, hfiles⟩ :=
        ih ⟨state, scene.reads ++ [(p, .error e)]⟩ (w.noting (Store.skipNotice p))
      refine ⟨state', (p, .error e) :: reads, ?_, congrArg (List.cons p) hfiles⟩
      rw [readAll, bind_watched hread]
      show readAll (reading f) rest ⟨state, scene.reads ++ [(p, .error e)]⟩
        (w.noting (Store.skipNotice p)) = _
      rw [hrest]
      simp [Machine.reporting, Machine.noting, Session.readable, Session.warnings, Except.toOption]

section Drain

variable {m : Type → Type} [Monad m] [LawfulMonad m] [Host m]

theorem findNext_bind_drain (read : Path → ExceptT ε m License) (files : List Path) :
    (do (← findNext read files).drain read) = drain read ⟨files, none⟩ := by
  induction files with
  | nil => rw [findNext, pure_bind]
  | cons file rest ih =>
    simp only [findNext, drain, readAll, bind_assoc]
    refine bind_congr fun r => ?_
    cases r with
    | ok l =>
      simp only [pure_bind, bind_assoc, Option.toList_some, Option.toList_none]
      rfl
    | error e =>
      simp only [bind_assoc]
      exact bind_congr fun _ => ih

/-- Handing out all licences that are left begins with looking for the next one. -/
theorem look_bind_drain (read : Path → ExceptT ε m License) (it : LicenseIterator) :
    (do (← it.look read).drain read) = it.drain read := by
  obtain ⟨files, pending⟩ := it
  cases pending with
  | some l => exact pure_bind _ _
  | none => exact findNext_bind_drain read files

end Drain

namespace Session

variable {files : List Path} {w : Machine} {s : Session σ ε}

/-- The session after the next licence has been looked for. -/
def looked (f : Path → σ → Except ε License × σ) (s : Session σ ε) : Session σ ε :=
  let x := s.iterator.look (reading f) s.scene s.machine
  ⟨x.1.1, x.1.2, x.2, s.handed⟩

theorem step_hasNext (s : Session σ ε) :
    s.step f .hasNext = (.has (s.looked f).iterator.pending.isSome, s.looked f) := by
  show (Reply.has (s.looked f).iterator.pending.isSome,
    ({ s.looked f with handed := s.handed ++ [] } : Session σ ε)) = _
  rw [List.append_nil]
  rfl

theorem step_next (s : Session σ ε) :
    s.step f .next = match (s.looked f).iterator.pending with
      | some l => (.next (.ok l), { s.looked f with
          iterator := { (s.looked f).iterator with pending := none }, handed := s.handed ++ [l] })
      | none => (.next (.error .exhausted), s.looked f) := by
  have hlook : s.iterator.look (reading f) s.scene s.machine
      = (((s.looked f).iterator, (s.looked f).scene), (s.looked f).machine) := rfl
  have hhanded : (s.looked f).handed = s.handed := rfl
  rcases hlooked : s.looked f with ⟨it, scene, v, handed⟩
  rw [hlooked] at hlook hhanded
  simp only [step, next, bind_watched hlook]
  cases hpending : it.pending with
  | some l =>
    subst hhanded
    rfl
  | none =>
    subst hhanded
    show (Reply.next (.error .exhausted), (⟨it, scene, v, s.handed ++ []⟩ : Session σ ε)) = _
    rw [List.append_nil]

theorem readable_append (reads more : List (Path × Except ε License)) :
    readable (reads ++ more) = readable reads ++ readable more :=
  List.filterMap_append

theorem warnings_append (reads more : List (Path × Except ε License)) :
    warnings (reads ++ more) = warnings reads ++ warnings more := by
  rw [warnings, List.filter_append, List.map_append]
  rfl

/-- Handing out all that is left reads the files that are left, after what is pending. -/
theorem step_drain {it : LicenseIterator} {scene scene' : Scene σ ε} {v v' : Machine}
    {ls : List License} (handed : List License)
    (h : readAll (reading f) it.files scene v = ((ls, scene'), v')) :
    (⟨it, scene, v, handed⟩ : Session σ ε).step f .drain
      = (.all (it.pending.toList ++ ls),
        ⟨⟨[], none⟩, scene', v', handed ++ (it.pending.toList ++ ls)⟩) := by
  have hdrain : it.drain (reading f) scene v
      = (((it.pending.toList ++ ls, ⟨[], none⟩), scene'), v') := by
    rw [drain]
    exact bind_watched h
  rw [step, hdrain]
  rfl

theorem exists_drained (s : Session σ ε) :
    ∃ reads, (s.step f .drain).1 = .all (s.iterator.pending.toList ++ readable reads) ∧
      (s.step f .drain).2.handed
        = s.handed ++ (s.iterator.pending.toList ++ readable reads) ∧
      (s.step f .drain).2.scene.reads = s.scene.reads ++ reads ∧
      (s.step f .drain).2.machine = Machine.reporting s.machine (warnings reads) ∧
      (s.step f .drain).2.IsExhausted ∧ reads.map Prod.fst = s.iterator.files := by
  obtain ⟨state, reads, hrun, hfiles⟩ :=
    exists_readAll (f := f) s.iterator.files s.scene s.machine
  have hdrain : s.step f .drain = _ := step_drain s.handed hrun
  refine ⟨reads, ?_⟩
  rw [hdrain]
  exact ⟨rfl, rfl, rfl, rfl, rfl, hfiles⟩

/-- A licence that is pending is not looked for again. -/
theorem looked_of_pending {l : License} (h : s.iterator.pending = some l) : s.looked f = s := by
  have hlook : s.iterator.look (reading f) s.scene s.machine
      = ((s.iterator, s.scene), s.machine) := by
    rw [look, h]
    rfl
  unfold looked
  rw [hlook]

/-- Looking for the next licence if none is pending. -/
theorem exists_looked (h : s.iterator.pending = none) :
    ∃ reads, (s.looked f).scene.reads = s.scene.reads ++ reads ∧
      (s.looked f).machine = Machine.reporting s.machine (warnings reads) ∧
      Looks s.iterator.files reads (s.looked f).iterator := by
  obtain ⟨it, state, reads, hrun, hlooks⟩ :=
    exists_looks (f := f) s.iterator.files s.scene s.machine
  have hlook : s.iterator.look (reading f) s.scene s.machine
      = ((it, ⟨state, s.scene.reads ++ reads⟩), Machine.reporting s.machine (warnings reads)) := by
    rw [look, h]
    exact hrun
  unfold looked
  rw [hlook]
  exact ⟨reads, rfl, rfl, hlooks⟩

/-! What is kept. -/

theorem consistent_start (files : List Path) (state : σ) (w : Machine) :
    (start files state w : Session σ ε).Consistent files w where
  files := rfl
  handed := rfl
  machine := (Machine.reporting_nil w).symm

/-- What is kept when more files are read, in order, and what has been read from them is handed out
or pending. -/
theorem Consistent.extend (h : s.Consistent files w) {s' : Session σ ε}
    {reads : List (Path × Except ε License)} (hreads : s'.scene.reads = s.scene.reads ++ reads)
    (hmachine : s'.machine = Machine.reporting s.machine (warnings reads))
    (hfiles : reads.map Prod.fst ++ s'.iterator.files = s.iterator.files)
    (hhanded : s'.handed ++ s'.iterator.pending.toList
      = s.handed ++ s.iterator.pending.toList ++ readable reads) : s'.Consistent files w where
  files := by
    rw [hreads, List.map_append, List.append_assoc, hfiles]
    exact h.files
  handed := by rw [hhanded, h.handed, hreads, readable_append]
  machine := by
    rw [hmachine, h.machine, hreads, warnings_append]
    simp only [Machine.reporting, List.append_assoc]

theorem Consistent.looked (h : s.Consistent files w) : (s.looked f).Consistent files w := by
  cases hpending : s.iterator.pending with
  | some l =>
    rw [looked_of_pending hpending]
    exact h
  | none =>
    obtain ⟨reads, hreads, hmachine, hlooks⟩ := exists_looked (f := f) hpending
    refine h.extend hreads hmachine hlooks.files_eq ?_
    show s.handed ++ _ = _
    rw [hpending, hlooks.readable_eq, Option.toList_none, List.append_nil]

/-- One move keeps what is kept through a session. -/
theorem Consistent.step (h : s.Consistent files w) (move : Move σ) :
    (s.step f move).2.Consistent files w := by
  cases move with
  | hasNext =>
    rw [step_hasNext]
    exact h.looked
  | next =>
    obtain ⟨hfiles, hhanded, hmachine⟩ := h.looked (f := f)
    rw [step_next]
    split
    · rename_i l hpending
      refine ⟨hfiles, ?_, hmachine⟩
      rw [hpending] at hhanded
      show s.handed ++ [l] ++ [] = _
      rw [List.append_nil]
      exact hhanded
    · exact ⟨hfiles, hhanded, hmachine⟩
  | drain =>
    obtain ⟨reads, -, hhanded, hreads, hmachine, hexhausted, hfiles⟩ := exists_drained (f := f) s
    refine h.extend hreads hmachine ?_ ?_
    · rw [hexhausted, List.append_nil]
      exact hfiles
    · rw [hhanded, hexhausted]
      show _ ++ [] = _
      rw [List.append_nil, List.append_assoc]
  | remove => exact h
  | meanwhile change => exact ⟨h.files, h.handed, h.machine⟩

theorem Consistent.run (h : s.Consistent files w) (moves : List (Move σ)) :
    (s.run f moves).Consistent files w := by
  induction moves generalizing s with
  | nil => exact h
  | cons move moves ih => exact ih (h.step move)

/-! What moves answer. -/

theorem drain_looked (s : Session σ ε) : (s.looked f).step f .drain = s.step f .drain := by
  have hlook : s.iterator.look (reading f) s.scene s.machine
      = (((s.looked f).iterator, (s.looked f).scene), (s.looked f).machine) := rfl
  have hdrain : s.iterator.drain (reading f) s.scene s.machine
      = (s.looked f).iterator.drain (reading f) (s.looked f).scene (s.looked f).machine := by
    rw [← look_bind_drain, bind_watched hlook]
  rw [step, step, hdrain]
  rfl

theorem isExhausted_of_drain (s : Session σ ε) : (s.step f .drain).2.IsExhausted := by
  obtain ⟨_, -, -, -, -, hexhausted, -⟩ := exists_drained (f := f) s
  exact hexhausted

/-- If no licence can be found, the end has come. -/
theorem isExhausted_looked (h : (s.looked f).iterator.pending = none) :
    (s.looked f).IsExhausted := by
  cases hpending : s.iterator.pending with
  | some l =>
    rw [looked_of_pending hpending, hpending] at h
    cases h
  | none =>
    obtain ⟨_, -, -, hlooks⟩ := exists_looked (f := f) hpending
    exact hlooks.files_of_pending h

/-- Handing out all that is left is handing out the next one and then all that is left. -/
theorem drain_of_next_ok {l : License} (h : (s.step f .next).1 = .next (.ok l)) :
    ∃ ls, s.step f .drain = (.all (l :: ls), (s.step f .drain).2) ∧
      (s.step f .next).2.step f .drain = (.all ls, (s.step f .drain).2) := by
  have hnext := step_next (f := f) s
  have hhanded : (s.looked f).handed = s.handed := rfl
  rw [← drain_looked s]
  rcases hlooked : s.looked f with ⟨⟨files, pending⟩, scene, v, handed⟩
  rw [hlooked] at hnext hhanded
  cases pending with
  | none =>
    rw [hnext] at h
    cases h
  | some l' =>
    rw [hnext] at h ⊢
    cases h
    rcases hrest : readAll (reading f) files scene v with ⟨⟨ls, scene'⟩, v'⟩
    refine ⟨ls, ?_, ?_⟩
    · rw [step_drain _ hrest]
      rfl
    · rw [step_drain _ hrest, step_drain _ hrest, ← hhanded]
      simp

/-- If there is no next one, nothing is left. -/
theorem drain_of_next_error {e : Failure} (h : (s.step f .next).1 = .next (.error e)) :
    e = .exhausted ∧ (s.step f .next).2.IsExhausted ∧
      s.step f .drain = (.all [], (s.step f .next).2) := by
  have hnext := step_next (f := f) s
  rw [← drain_looked s]
  cases hpending : (s.looked f).iterator.pending with
  | some l =>
    rw [hnext, hpending] at h
    cases h
  | none =>
    rw [hpending] at hnext
    rw [hnext] at h ⊢
    cases h
    have hexhausted := isExhausted_looked hpending
    refine ⟨rfl, hexhausted, ?_⟩
    rcases hlooked : s.looked f with ⟨it, scene, v, handed⟩
    rw [hlooked] at hexhausted
    cases hexhausted
    have hrest : readAll (reading f) [] scene v = (([], scene), v) := rfl
    rw [step_drain _ hrest]
    simp

/-! What is over. -/

/-- Looking for a licence that is not there does nothing once the end has come. -/
theorem looked_of_isExhausted (h : s.IsExhausted) : s.looked f = s := by
  obtain ⟨it, scene, v, handed⟩ := s
  cases h
  rfl

/-- Once the end has come no move changes anything but what is elsewhere. -/
theorem step_of_isExhausted (h : s.IsExhausted) (move : Move σ) :
    ∃ state, (s.step f move).2 = { s with scene := ⟨state, s.scene.reads⟩ } := by
  cases move with
  | hasNext =>
    rw [step_hasNext, looked_of_isExhausted h]
    exact ⟨s.scene.state, rfl⟩
  | next =>
    rw [step_next, looked_of_isExhausted h]
    obtain ⟨it, scene, v, handed⟩ := s
    cases h
    exact ⟨scene.state, rfl⟩
  | drain =>
    obtain ⟨it, scene, v, handed⟩ := s
    cases h
    refine ⟨scene.state, ?_⟩
    show (⟨_, _, _, handed ++ []⟩ : Session σ ε) = _
    rw [List.append_nil]
    rfl
  | remove => exact ⟨s.scene.state, rfl⟩
  | meanwhile change => exact ⟨change s.scene.state, rfl⟩

theorem run_of_isExhausted (h : s.IsExhausted) (moves : List (Move σ)) :
    ∃ state, s.run f moves = { s with scene := ⟨state, s.scene.reads⟩ } := by
  induction moves generalizing s with
  | nil => exact ⟨s.scene.state, rfl⟩
  | cons move moves ih =>
    obtain ⟨state, hstep⟩ := step_of_isExhausted (f := f) h move
    have hexhausted : ({ s with scene := ⟨state, s.scene.reads⟩ } : Session σ ε).IsExhausted := h
    obtain ⟨state', hrun⟩ := ih hexhausted
    refine ⟨state', ?_⟩
    rw [Session.run, List.foldl_cons, hstep]
    exact hrun

/-- The answers of an iterator that has come to its end, and what they change: nothing. -/
theorem answers_of_isExhausted (h : s.IsExhausted) :
    s.step f .hasNext = (.has false, s) ∧ s.step f .next = (.next (.error .exhausted), s) ∧
      s.step f .drain = (.all [], s) := by
  obtain ⟨it, scene, v, handed⟩ := s
  cases h
  refine ⟨?_, ?_, ?_⟩
  · rw [step_hasNext]
    rfl
  · rw [step_next]
    rfl
  · have hrest : readAll (reading f) [] scene v = (([], scene), v) := rfl
    rw [step_drain _ hrest]
    simp

/-- What is true of moves in a session, whenever they are made. -/
structure Orderly (f : Path → σ → Except ε License × σ) (s : Session σ ε) : Prop where
  /-- Asking for more reads nothing while a licence is pending. -/
  ask_pending : s.iterator.pending ≠ none → (s.step f .hasNext).2 = s
  /-- If none is, asking reads files up to and including the first one that can be read. -/
  ask_reads : s.iterator.pending = none → ∃ reads,
    (s.step f .hasNext).2.scene.reads = s.scene.reads ++ reads ∧
      Looks s.iterator.files reads (s.step f .hasNext).2.iterator
  /-- There is more if and only if the next licence would be handed out. -/
  ask_iff : (s.step f .hasNext).1 = .has true ↔ ∃ l, (s.step f .next).1 = .next (.ok l)
  /-- Asking again gives the same answer and changes nothing, whatever has happened elsewhere. -/
  ask_again : ∀ change : σ → σ,
    let t := ((s.step f .hasNext).2.step f (.meanwhile change)).2
    t.step f .hasNext = ((s.step f .hasNext).1, t)
  /-- If there is no more, the end has come. -/
  ask_end : (s.step f .hasNext).1 = .has false → (s.step f .hasNext).2.IsExhausted
  /-- Handing out all that is left is handing out the next licence and then all that is left. -/
  drain_next : ∀ l, (s.step f .next).1 = .next (.ok l) → ∃ ls,
    s.step f .drain = (.all (l :: ls), (s.step f .drain).2) ∧
      (s.step f .next).2.step f .drain = (.all ls, (s.step f .drain).2)
  /-- If there is no next licence nothing is left, and the end has come. -/
  drain_end : ∀ e, (s.step f .next).1 = .next (.error e) → e = .exhausted ∧
    (s.step f .next).2.IsExhausted ∧ s.step f .drain = (.all [], (s.step f .next).2)
  /-- Handing out all that is left brings the end. -/
  drain_all : (s.step f .drain).2.IsExhausted
  /-- An attempt to remove a licence is turned down and does nothing. -/
  remove : s.step f .remove = (.removed (.error .readOnly), s)
  /-- The end is for ever: nothing is read, reported or handed out any more. -/
  ended : s.IsExhausted → ∀ moves : List (Move σ),
    let t := s.run f moves
    t.IsExhausted ∧ t.scene.reads = s.scene.reads ∧ t.machine = s.machine ∧
      t.handed = s.handed ∧ t.step f .hasNext = (.has false, t) ∧
      t.step f .next = (.next (.error .exhausted), t) ∧ t.step f .drain = (.all [], t)

theorem looked_idem (s : Session σ ε) (change : σ → σ) :
    let t : Session σ ε :=
      { s.looked f with scene.state := change (s.looked f).scene.state }
    t.looked f = t := by
  intro t
  cases hpending : (s.looked f).iterator.pending with
  | some l => exact looked_of_pending hpending
  | none => exact looked_of_isExhausted (isExhausted_looked hpending)

theorem orderly (s : Session σ ε) : s.Orderly f where
  ask_pending hpending := by
    obtain ⟨l, hl⟩ := Option.ne_none_iff_exists'.1 hpending
    rw [step_hasNext]
    exact looked_of_pending hl
  ask_reads hpending := by
    obtain ⟨reads, hreads, -, hlooks⟩ := exists_looked (f := f) hpending
    rw [step_hasNext]
    exact ⟨reads, hreads, hlooks⟩
  ask_iff := by
    rw [step_hasNext, step_next]
    cases (s.looked f).iterator.pending with
    | some l => simp
    | none => simp
  ask_again change := by
    intro t
    have ht : t = { s.looked f with scene.state := change (s.looked f).scene.state } := by
      show ((s.step f .hasNext).2.step f (.meanwhile change)).2 = _
      rw [step_hasNext]
      rfl
    have hlooked : t.looked f = t := by
      rw [ht]
      exact looked_idem s change
    rw [step_hasNext, step_hasNext, hlooked, ht]
  ask_end hend := by
    rw [step_hasNext] at hend ⊢
    apply isExhausted_looked
    cases hpending : (s.looked f).iterator.pending with
    | some l =>
      rw [hpending] at hend
      cases hend
    | none => rfl
  drain_next _ h := drain_of_next_ok h
  drain_end _ h := drain_of_next_error h
  drain_all := isExhausted_of_drain s
  remove := rfl
  ended hexhausted moves := by
    intro t
    obtain ⟨state, ht⟩ := run_of_isExhausted (f := f) hexhausted moves
    have ht : t = { s with scene := ⟨state, s.scene.reads⟩ } := ht
    have hend : t.IsExhausted := by
      rw [ht]
      exact hexhausted
    rw [ht] at hend ⊢
    exact ⟨hend, rfl, rfl, rfl, answers_of_isExhausted hend⟩

/-- Whatever is done with an iterator, and whatever reads depend on: the files read so far are the
first ones of its files, each read once; the licences handed out, and then the one that is pending,
are those that have been read from these files, in order; there has been one warning for each of
them that could not be read. Every further move is orderly. Going through a store begins with the
licence files that are in its directory at that time, and reads none of them. -/
theorem session_run (f : Path → σ → Except ε License × σ) (files : List Path) (state : σ)
    (w : Machine) (moves : List (Move σ)) :
    ((start files state w).run f moves).Consistent files w ∧
      ((start files state w).run f moves).Orderly f ∧
      ∀ directory log, w.disk.list directory ≠ .error .nul →
        watch (Store.iterate directory) log w
          = ((.ok (.ofFiles (Store.filesAmong directory
              (Store.namesOf (w.disk.list directory)))), log),
            Machine.reporting w (Store.listNotices directory (w.disk.list directory))) :=
  ⟨(consistent_start files state w).run moves, orderly _, fun _ _ h => Store.watch_iterate h⟩

example (l : License) (p q : Path) (w : Machine) :
    ((start [p, q] 0 w : Session Nat Unit).run
      (fun _ time => (if time = 0 then .error () else .ok l, time + 1))
      [.hasNext, .hasNext, .next, .next, .drain]).handed = [l] := by
  rfl

end Session

end LicenseIterator

end LicenseDepot
