import LicenseDepot.Proofs.Files.Access

/-!
# What changing access changes

Writing changes what there is at one location, the one that its path leads to through links.
Removing what a path names changes what there is at one location too, and if that is a link its
target stays. Removing a directory with all that is in it changes nothing that is not in it. Main
statements: `write_changes`, `unlink_changes` and `removeTree_changes`.
-/

namespace LicenseDepot

namespace FileTree

variable {t : FileTree} {l m : Location}

theorem get?_clear (m : Location) :
    (t.clear l).get? m = if l <+: m ∧ m ≠ l then none else t.get? m := by
  apply Option.ext
  intro x
  have hentries : (t.clear l).entries = notBelow t.entries l := rfl
  rw [get?_eq_some_iff, hentries, notBelow, List.mem_filter, Bool.or_eq_true, beq_iff_eq,
    Bool.not_eq_true', ← Bool.not_eq_true, List.isPrefixOf_iff_prefix]
  split
  · rename_i hbelow
    constructor
    · rintro (⟨rfl, -⟩ | ⟨-, heq | hno⟩)
      · exact absurd (List.prefix_nil.1 hbelow.1).symm hbelow.2
      · exact absurd heq hbelow.2
      · exact absurd hbelow.1 hno
    · intro h
      cases h
  · rename_i hno
    have hkept : m = l ∨ ¬ l <+: m := by
      by_cases hm : m = l
      · exact .inl hm
      · exact .inr fun hpre => hno ⟨hpre, hm⟩
    rw [get?_eq_some_iff]
    simp [hkept]

/-- Removing what there is at a location changes nothing that is not there. -/
theorem get?_prune_of_not_isPrefix (h : ¬ l <+: m) : (t.prune l).get? m = t.get? m := by
  have hl : l ≠ [] := by
    rintro rfl
    exact h List.nil_prefix
  rw [get?_prune hl, if_neg h]

/-- Nothing lies below a location that is not a directory. -/
theorem get?_eq_none_of_isPrefix (h : t.get? l ≠ some .directory) (hpre : l <+: m) (hne : m ≠ l) :
    t.get? m = none := by
  rw [Option.eq_none_iff_forall_ne_some]
  intro x hx
  exact h (get?_of_isPrefix hx hpre (Ne.symm hne))

end FileTree

namespace Disk

variable {d d' : Disk} {p : Path} {l : Location} {content : Bytes}

/-- Whether the files of two disks are the same, but for what there is at some locations. -/
structure SameExcept (d d' : Disk) (changed : Location → Prop) : Prop where
  here : d'.here = d.here
  get? : ∀ m, ¬ changed m → d'.tree.get? m = d.tree.get? m

/-- Writing a file changes the file that its path leads to, or makes it in a directory that is
there, and changes nothing else. -/
theorem write_changes (h : d.write p content = .ok d') :
    ∃ s, d.locate .writing p = .ok s ∧
      (∀ x, d.tree.get? s.location = some x → ∃ old, x = .file old) ∧
      d.tree.get? s.location.dropLast = some .directory ∧
      d'.tree.get? s.location = some (.file content) ∧
      d.SameExcept d' (· = s.location) := by
  obtain ⟨s, parent, name, hlocate, hs, hdir, hfile, rfl⟩ := exists_of_write h
  have hput := FileTree.get?_put (n := .file content) (FileTree.isDirectory_iff.2 hdir)
    (FileTree.isDirectory_eq_false hfile)
  refine ⟨s, hlocate, ?_, ?_, ?_, rfl, fun m hm => ?_⟩
  · rw [hs]
    exact hfile
  · rw [hs, List.dropLast_concat]
    exact hdir
  · rw [hs]
    exact (hput _).trans (if_pos rfl)
  · rw [hs] at hm
    exact (hput _).trans (if_neg hm)

/-- Removing what a path names removes a file or the link itself, and changes nothing else. -/
theorem unlink_changes (h : d.unlink p = .ok d') :
    ∃ l n, d.locate .itself p = .ok (.found l n) ∧ n ≠ .directory ∧ d'.tree.get? l = none ∧
      d.SameExcept d' (· = l) := by
  unfold unlink at h
  split at h
  · split at h
    · cases h
    · cases h
    · rename_i l n hdir hlocate
      cases h
      have hn : n ≠ .directory := by
        rintro rfl
        exact hdir rfl
      have hfound : d.tree.get? l ≠ some .directory := by
        rw [(locate_eq_ok_iff.1 hlocate).2.get?]
        exact fun heq => hn (Option.some.inj heq)
      have hl : l ≠ [] := by
        rintro rfl
        exact hfound FileTree.get?_nil
      refine ⟨l, n, hlocate, hn, ?_, rfl, fun m hm => ?_⟩
      · exact (FileTree.get?_prune hl l).trans (if_pos List.prefix_rfl)
      · by_cases hpre : l <+: m
        · exact ((FileTree.get?_prune hl m).trans (if_pos hpre)).trans
            (FileTree.get?_eq_none_of_isPrefix hfound hpre hm).symm
        · exact FileTree.get?_prune_of_not_isPrefix hpre
    · cases h
  · split at h
    · cases h
    · cases h

/-- Removing an empty directory removes what its path names. -/
theorem exists_of_removeDirectory (h : d.removeDirectory p = .ok d') :
    ∃ l, d.locate .itself p = .ok (.found l .directory) ∧
      d' = { d with tree := d.tree.prune l } := by
  unfold removeDirectory at h
  split at h
  · cases h
  · cases h
  · split at h
    · obtain ⟨_, -, h⟩ := bind_eq_ok_iff.1 h
      cases h
    · split at h
      · cases h
      · rename_i l hlocate
        split at h
        · cases h
          exact ⟨l, hlocate, rfl⟩
        · cases h
      · cases h
      · cases h

theorem removeDirectory_ne_nul (h : p.hasNul = false) : d.removeDirectory p ≠ .error .nul := by
  have hlocate := d.locate_ne_nul h .itself
  unfold removeDirectory
  split
  · exact fun heq => nomatch heq
  · exact fun heq => nomatch heq
  · split
    · cases hitself : d.locate .itself p with
      | error e =>
        rintro ⟨⟩
        exact hlocate hitself
      | ok s => exact fun heq => nomatch heq
    · split
      · rename_i hitself
        rintro ⟨⟩
        exact hlocate hitself
      · split
        · exact fun heq => nomatch heq
        · exact fun heq => nomatch heq
      · exact fun heq => nomatch heq
      · exact fun heq => nomatch heq

/-- A whole directory is not refused for the characters of its path unless it has such a
character. -/
theorem removeTree_ne_nul (h : p.hasNul = false) : (d.removeTree p).2 ≠ .error .nul := by
  have hitself := d.locate_ne_nul h .itself
  have htarget := d.locate_ne_nul h .target
  unfold removeTree
  split
  · rename_i e he
    rintro ⟨⟩
    exact hitself he
  · exact fun heq => nomatch heq
  · exact fun heq => nomatch heq
  · split
    · rename_i e he
      rintro ⟨⟩
      exact htarget he
    · exact fun heq => nomatch heq
    · exact fun heq => nomatch heq
  · rename_i l _
    dsimp only
    cases hremove : { d with tree := d.tree.clear l }.removeDirectory p with
    | ok d' => exact fun heq => nomatch heq
    | error e =>
      rintro ⟨⟩
      exact removeDirectory_ne_nul h hremove

/-- Removing a directory with all that is in it changes nothing that is not in it. It is refused for
the characters of its path before anything is changed. -/
theorem removeTree_changes (d : Disk) (p : Path) :
    ((d.removeTree p).1 = d ∨ ∃ l, d.locate .itself p = .ok (.found l .directory) ∧
      d.SameExcept (d.removeTree p).1 (l <+: ·)) ∧
    ((d.removeTree p).2 = .error .nul → (d.removeTree p).1 = d) := by
  unfold removeTree
  split
  · exact ⟨.inl rfl, fun _ => rfl⟩
  · exact ⟨.inl rfl, fun _ => rfl⟩
  · exact ⟨.inl rfl, fun _ => rfl⟩
  · split
    · exact ⟨.inl rfl, fun _ => rfl⟩
    · exact ⟨.inl rfl, fun _ => rfl⟩
    · exact ⟨.inl rfl, fun _ => rfl⟩
  · rename_i l hlocate
    have hclear : d.SameExcept { d with tree := d.tree.clear l } (l <+: ·) := by
      refine ⟨rfl, fun m hm => ?_⟩
      exact (FileTree.get?_clear m).trans (if_neg fun h => hm h.1)
    have hless : ∀ m x, (d.tree.clear l).get? m = some x → d.tree.get? m = some x := by
      intro m x hx
      rw [FileTree.get?_clear] at hx
      split at hx
      · cases hx
      · exact hx
    dsimp only
    cases hremove : { d with tree := d.tree.clear l }.removeDirectory p with
    | ok d' =>
      obtain ⟨l', hlocate', rfl⟩ := exists_of_removeDirectory hremove
      -- What is found in the emptied directory's tree is found where there was more.
      have hsame : d.locate .itself p = .ok (.found l' .directory) :=
        locate_of_more (d := { d with tree := d.tree.clear l }) (t := d.tree) hless hlocate'
      rw [hlocate] at hsame
      cases hsame
      refine ⟨.inr ⟨l, hlocate, rfl, fun m hm => ?_⟩, fun h => nomatch h⟩
      exact (FileTree.get?_prune_of_not_isPrefix hm).trans (hclear.get? m hm)
    | error e =>
      have hnul := hasNul_of_checkPath (locate_eq_ok_iff.1 hlocate).1
      refine ⟨.inr ⟨l, hlocate, hclear⟩, ?_⟩
      rintro ⟨⟩
      exact absurd hremove (removeDirectory_ne_nul hnul)

end Disk

end LicenseDepot
