import LicenseDepot.Proofs.Files.Access

/-!
# What a path leads to

All that is asked about a path that is followed to its end, whether it leads to something and what
can be read there, is settled by one answer: what stands there, or why nothing can be found
(`Disk.stat`). Main statements: `holds_eq_stat` and `read_eq_stat`.
-/

namespace LicenseDepot

namespace Disk

variable {d : Disk} {p : Path} {n : Node} {b : Bytes}

/-- What a path leads to. -/
def stat (d : Disk) (p : Path) : Except AccessFault Node :=
  match d.locate .target p with
  | .ok (.found _ (.link _)) => .error (.refused .linkLoop p)
  | .ok (.found _ n) => .ok n
  | .ok (.vacant _ _) => .error (.refused .missing p)
  | .error e => .error e

/-- The numbers of the faults for which a path counts as leading to nothing: nothing is there, it is
asked for through no open file, through what is no directory, or through too many links. -/
def absentNumbers : List Nat :=
  [2, 9, 20, 40]

/-- Whether a path leads to nothing, as far as whoever asks for it is concerned. -/
def IsAbsent (d : Disk) (p : Path) : Prop :=
  p.hasNul = true ∨
    ∃ fault, d.stat p = .error (.refused fault p) ∧ fault.number ∈ absentNumbers

/-- A path is refused for its characters, or because something is not there or is too long. -/
theorem fault_of_stat {e : AccessFault} (h : d.stat p = .error e) :
    e = .nul ∧ p.hasNul = true ∨
      ∃ fault, e = .refused fault p ∧ (fault.meansAbsent = true ∨ fault = .nameTooLong) := by
  unfold stat at h
  split at h
  · cases h
    exact .inr ⟨.linkLoop, rfl, .inl rfl⟩
  · cases h
  · cases h
    exact .inr ⟨.missing, rfl, .inl rfl⟩
  · rename_i hlocate
    cases h
    rcases fault_of_locate hlocate with rfl | rfl | ⟨f, hwalk, rfl⟩
    · refine .inl ⟨rfl, ?_⟩
      by_contra hnul
      exact locate_ne_nul (Bool.eq_false_iff.2 hnul) .target hlocate
    · exact .inr ⟨.nameTooLong, rfl, .inr rfl⟩
    · exact .inr ⟨f, rfl, FileTree.fault_of_walk_target hwalk⟩

theorem stat_of_hasNul (h : p.hasNul = true) : d.stat p = .error .nul := by
  have hlocate : d.locate .target p = .error .nul := by
    rw [locate, checkPath, if_pos h]
    rfl
  rw [stat, hlocate]

/-- The faults of the model that mean absence are those with the numbers of absence. -/
theorem number_mem_absentNumbers_iff {fault : FileFault}
    (h : fault.meansAbsent = true ∨ fault = .nameTooLong) :
    fault.number ∈ absentNumbers ↔ fault.meansAbsent = true := by
  rcases h with h | rfl
  · cases fault with
    | other number words => cases h
    | _ => decide
  · decide

/-- Whoever asks whether a path leads to something is told so from what it leads to. -/
theorem holds_eq_stat (d : Disk) (p : Path) :
    d.holds p = match d.stat p with
      | .ok _ => .ok true
      | .error .nul => .ok false
      | .error (.refused fault q) =>
        if fault.meansAbsent then .ok false else .error (.refused fault q)
      | .error e => .error e := by
  unfold holds stat
  cases d.locate .target p with
  | error e => cases e <;> rfl
  | ok s =>
    cases s with
    | vacant parent name => rfl
    | found l n => cases n <;> rfl

theorem stat_of_read (h : d.read p = .ok b) : d.stat p = .ok (.file b) := by
  obtain ⟨l, hlocate⟩ := read_eq_ok_iff.1 h
  rw [stat, hlocate]

/-- A path that leads to something does not count as leading to nothing. -/
theorem not_isAbsent_of_stat (h : d.stat p = .ok n) : ¬ d.IsAbsent p := by
  rintro (hnul | ⟨fault, hfault, -⟩)
  · rw [stat_of_hasNul hnul] at h
    cases h
  · rw [hfault] at h
    cases h

/-- A path is not followed to a link. -/
theorem stat_ne_link (d : Disk) (p : Path) (target : String) : d.stat p ≠ .ok (.link target) := by
  intro h
  unfold stat at h
  split at h
  · cases h
  · rename_i hlink _
    cases h
    exact hlink target rfl
  · cases h
  · cases h

/-- Whoever reads a path is given what is in the file that it leads to. -/
theorem read_eq_stat (d : Disk) (p : Path) :
    d.read p = match d.stat p with
      | .ok (.file content) => .ok content
      | .ok _ => .error (.refused .isDirectory p)
      | .error e => .error e := by
  unfold read stat
  cases d.locate .target p with
  | error e => rfl
  | ok s =>
    cases s with
    | vacant parent name => rfl
    | found l n => cases n <;> rfl

end Disk

end LicenseDepot
