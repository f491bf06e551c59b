import LicenseDepot.Proofs.Files.Removal
import LicenseDepot.Proofs.Store.Writing

/-!
# Removing a whole store

A store with room for many licences is removed with its directory and all that is in it, links that
are in it included and not followed. If its path names no directory, nothing is changed. A store
that is gone is an empty one to whoever goes through it or removes it once more. Licences are not
found in it either, as long as their paths are not too long to be asked for: whoever asks for one
with a path that is too long is refused. Main statement: `delete_whole`.
-/

namespace LicenseDepot

namespace Store

open Machine

variable {w w' : Machine} {p directory : Path} {id : LicenseId} {l : Location}

/-- Whether a store tells that a licence is not there, and does not find it. -/
def Absent (w : Machine) (directory : Path) (id : LicenseId) : Prop :=
  (run (contains (m := StateM Machine) (.file directory true) id) w).1 = .ok false ∧
    (run (retrieve (m := StateM Machine) (.file directory true) (some id)) w).1 = .ok none

theorem absent_iff :
    Absent w directory id ↔ w.disk.holds (directory.child id.fileName) = .ok false := by
  unfold Absent
  rw [run_contains, (run_retrieve _ _ w).1, mapError_eq_ok_iff]
  constructor
  · exact And.left
  · intro h
    refine ⟨h, ?_⟩
    have hfile : (Reference.file directory true).fileOf (some id)
        = .ok (directory.child id.fileName) := rfl
    simp only [Disk.retrieve, hfile, h]

/-- Whether whoever asks a store for a licence is refused because its path is too long. -/
def Refuses (w : Machine) (directory : Path) (id : LicenseId) : Prop :=
  (run (contains (m := StateM Machine) (.file directory true) id) w).1
      = .error (.access (.refused .nameTooLong (directory.child id.fileName))) ∧
    (run (retrieve (m := StateM Machine) (.file directory true) (some id)) w).1
      = .error (.access (.refused .nameTooLong (directory.child id.fileName)))

theorem refuses_of_not_hasRoom (hnul : p.hasNul = false) (hparts : p.parts ≠ [])
    (hroom : ¬ p.HasRoom) (w : Machine) (id : LicenseId) : Refuses w p id := by
  have hlong : pathLimit ≤ Path.byteLength (p.child id.fileName).toText := by
    rw [Path.hasRoom_iff hparts] at hroom
    rw [Path.byteLength_toText_child hparts, LicenseId.byteLength_fileName]
    omega
  have hholds := w.disk.holds_of_too_long
    (Disk.hasNul_child hnul (LicenseId.nul_notMem_fileName id)) hlong
  have hfile : (Reference.file p true).fileOf (some id) = .ok (p.child id.fileName) := rfl
  constructor
  · rw [run_contains, hholds]
    rfl
  · rw [(run_retrieve _ _ w).1]
    simp only [Disk.retrieve, hfile, hholds]

/-- Removing a whole store is not refused, whether it is done or not, unless for the characters of
its path. -/
theorem run_delete_whole (hnul : p.hasNul = false) (w : Machine) :
    ∃ w', run (delete (m := StateM Machine) (.file p true) none) w = (.ok (), w') ∧
      w'.disk = (w.disk.removeTree p).1 := by
  have hrun := run_removeAll p w
  have hno := w.disk.removeTree_ne_nul hnul
  change ∃ w', run (removeAll (m := StateM Machine) p) w = (.ok (), w') ∧ _
  rcases hremove : w.disk.removeTree p with ⟨d, ⟨⟩ | e⟩
  · rename_i e
    rw [hremove] at hrun hno
    cases e with
    | nul => exact absurd rfl hno
    | refused fault q => exact ⟨_, hrun, rfl⟩
    | unlistable q => exact ⟨_, hrun, rfl⟩
    | throughLink => exact ⟨_, hrun, rfl⟩
  · rw [hremove] at hrun
    exact ⟨_, hrun, rfl⟩

/-! Stores that are gone. -/

/-- Whether there is nothing left at a location and below it, and everything else is as it was. -/
structure IsGone (d d' : Disk) (l : Location) : Prop where
  nothing : ∀ m, l <+: m → d'.tree.get? m = none
  elsewhere : d.SameExcept d' (l <+: ·)

variable {d d' : Disk}

theorem IsGone.less (h : IsGone d d' l) (m : Location) (x : Node) (hx : d'.tree.get? m = some x) :
    d.tree.get? m = some x := by
  by_cases hm : l <+: m
  · rw [h.nothing m hm] at hx
    cases hx
  · rw [← h.elsewhere.get? m hm]
    exact hx

/-- The path of a store that is gone leads to nothing. -/
theorem IsGone.lacks (h : IsGone d d' l) (hp : d.Straight p)
    (hfound : d.locate .itself p = .ok (.found l .directory)) (purpose : Purpose) :
    d'.Lacks purpose p := by
  obtain ⟨last, hlast, hchild⟩ := hp.exists_child
  have hcheck := (Disk.locate_eq_ok_iff.1 hfound).1
  rw [hchild] at hfound hcheck ⊢
  obtain ⟨m, hdir, rfl, hname⟩ := Disk.exists_walks_directory hlast hfound
  exact Disk.lacks_child h.elsewhere.here h.less hdir hlast hcheck hname
    (h.nothing _ List.prefix_rfl) purpose

/-- The path of a licence in a store that is gone leads to nothing, if it is not too long. -/
theorem IsGone.lacks_fileName (h : IsGone d d' l)
    (hfound : d.locate .itself p = .ok (.found l .directory)) (hroom : p.HasRoom)
    (id : LicenseId) : d'.Lacks .target (p.child id.fileName) := by
  have hadmits := Disk.admits_fileName
    (Disk.locate_target_of_itself hfound fun _ => Node.noConfusion) hroom id
  exact Disk.lacks_child h.elsewhere.here h.less (Disk.locate_eq_ok_iff.1 hadmits.found).2
    hadmits.proper hadmits.checkPath_child hadmits.length (h.nothing _ (List.prefix_append _ _))
    .target

/-- Nothing is left of a store whose path leads straight to a directory. -/
theorem exists_gone (hp : w.disk.Straight p)
    (hfound : w.disk.locate .itself p = .ok (.found l .directory)) :
    ∃ w', run (delete (m := StateM Machine) (.file p true) none) w = (.ok (), w') ∧
      w'.journal = w.journal ∧ IsGone w.disk w'.disk l := by
  obtain ⟨d', hremove, hhere, hget⟩ := Disk.removeTree_straight hp hfound
  have hrun := run_removeAll p w
  rw [hremove] at hrun
  refine ⟨_, hrun, rfl, fun m hm => ?_, hhere, fun m hm => ?_⟩
  · exact (hget m).trans (if_pos hm)
  · exact (hget m).trans (if_neg hm)

/-- A store with room for many licences, whose path leads straight to a directory, is removed with
all that is in it, links included, and nothing else is. After that going through it finds nothing
and warns of nothing, and removing it once more changes nothing. No licence is found in it if its
path leaves room for their names; otherwise whoever asks for one is refused. If the path leads to
anything but a directory, or to nothing, removing the store changes nothing. This is so for a tree
of any depth: that removing one may run out of recursion is not modelled (see `Disk.removeTree`). -/
theorem delete_whole (hp : w.disk.Straight p) :
    (∀ l, w.disk.locate .itself p = .ok (.found l .directory) →
      l = w.disk.start p ++ p.parts ∧
      ∃ w', run (delete (m := StateM Machine) (.file p true) none) w = (.ok (), w') ∧
        w'.journal = w.journal ∧ IsGone w.disk w'.disk l ∧
        run (licenses (m := StateM Machine) (.file p true)) w' = (.ok [], w') ∧
        (p.HasRoom → ∀ id, Absent w' p id) ∧ (¬ p.HasRoom → ∀ id, Refuses w' p id) ∧
        ∃ w'', run (delete (m := StateM Machine) (.file p true) none) w' = (.ok (), w'') ∧
          w''.disk = w'.disk) ∧
    ((∀ l, w.disk.locate .itself p ≠ .ok (.found l .directory)) →
      ∃ w', run (delete (m := StateM Machine) (.file p true) none) w = (.ok (), w') ∧
        w'.disk = w.disk) := by
  constructor
  · intro l hfound
    obtain ⟨w', hrun, hjournal, hgone⟩ := exists_gone hp hfound
    have hlist := (hgone.lacks hp hfound .target).list
    have hlicenses : run (licenses (m := StateM Machine) (.file p true)) w' = (.ok [], w') := by
      have hfiles : filesAmong p (namesOf (w'.disk.list p)) = [] := by
        rw [hlist]
        rfl
      have hnul : w'.disk.list p ≠ .error .nul := by
        rw [hlist]
        exact fun heq => nomatch heq
      rw [run_licenses_of_ne_nul hfiles hnul, hlist]
      exact congrArg (Prod.mk _) (reporting_nil w')
    obtain ⟨w'', hagain, hdisk⟩ := run_delete_whole hp.characters w'
    refine ⟨(hp.eq_of_locate hfound).1, w', hrun, hjournal, hgone, hlicenses, fun hroom id => ?_,
      fun hroom => refuses_of_not_hasRoom hp.characters hp.named hroom w', w'', hagain, ?_⟩
    · exact absent_iff.2 (hgone.lacks_fileName hfound hroom id).holds
    · rw [hdisk, (hgone.lacks hp hfound .itself).removeTree]
  · intro hnone
    obtain ⟨w', hrun, hdisk⟩ := run_delete_whole hp.characters w
    refine ⟨w', hrun, ?_⟩
    rcases (w.disk.removeTree_changes p).1 with hsame | ⟨l, hfound, -⟩
    · rw [hdisk, hsame]
    · exact absurd hfound (hnone l)

/-- A machine whose root directory holds an empty file, and a store with a link to it. -/
def linkedShelf : Machine where
  disk :=
    { tree := ((FileTree.empty.put [] "kept" (.file [])).put [] "shelf" .directory).put ["shelf"]
        "way" (.link "/kept")
      here := [] }
  journal := []
  readings := {}

/-- The link goes with the store that it is in, and what it leads to stays. -/
theorem delete_whole_linkedShelf :
    ∃ w', run (delete (m := StateM Machine) (.file ⟨.root, ["shelf"]⟩ true) none) linkedShelf
        = (.ok (), w') ∧
      w'.disk.tree.get? ["shelf", "way"] = none ∧
      w'.disk.tree.get? ["kept"] = some (.file []) ∧ ∀ id, Absent w' ⟨.root, ["shelf"]⟩ id := by
  have hstraight : linkedShelf.disk.Straight ⟨.root, ["shelf"]⟩ :=
    .of_parts_eq_singleton rfl (by decide) (by decide)
  have hfound := hstraight.locate (by decide) (by decide) (by decide)
  obtain ⟨-, w', hrun, -, hgone, -, habsent, -⟩ := (delete_whole hstraight).1 _ hfound
  have hroom : Path.HasRoom ⟨.root, ["shelf"]⟩ := (Path.hasRoom_iff (by decide)).2 (by decide)
  refine ⟨w', hrun, hgone.nothing _ (by decide), ?_, habsent hroom⟩
  rw [hgone.elsewhere.get? _ (by decide)]
  decide

/-- The path of 21 directories, each in the one before, whose names have 192 bytes. -/
def deepPath : Path := .repeated (Path.nameOfLength 192) 21

/-- A machine with these directories and nothing else. -/
def deepMachine : Machine := ⟨.nested (Path.nameOfLength 192) 21, [], {}⟩

/-- A store is removed although its path, of 4052 bytes, leaves no room for the names of its
licences, and then whoever asks for one is refused. -/
theorem delete_whole_deepMachine :
    deepMachine.disk.Straight deepPath ∧
      deepMachine.disk.locate .itself deepPath = .ok (.found deepPath.parts .directory) ∧
      ∃ w', run (delete (m := StateM Machine) (.file deepPath true) none) deepMachine
          = (.ok (), w') ∧
        ∀ id, ¬ Absent w' deepPath id ∧ Refuses w' deepPath id := by
  have hstraight : deepMachine.disk.Straight deepPath :=
    Disk.straight_repeated (by decide) (Path.nameOfLength_ne_up 192)
      (Path.notMem_nameOfLength (by decide) 192)
  have hlength : Path.byteLength deepPath.toText = 4052 := by
    have h := Path.byteLength_repeated (Path.nameOfLength 192) 20
    rw [Path.byteLength_nameOfLength] at h
    exact h
  have hshort : Path.byteLength deepPath.toText < pathLimit := by
    rw [hlength]
    decide
  have hnames : ∀ part ∈ deepPath.parts, Path.byteLength part ≤ nameLimit := by
    intro part hpart
    rw [List.eq_of_mem_replicate hpart, Path.byteLength_nameOfLength]
    decide
  have hfound : deepMachine.disk.locate .itself deepPath
      = .ok (.found deepPath.parts .directory) :=
    hstraight.locate hshort hnames (Disk.get?_repeated _ List.prefix_rfl)
  have hroom : ¬ deepPath.HasRoom := by
    rw [Path.hasRoom_iff hstraight.named, hlength]
    decide
  obtain ⟨w', hrun, -, -⟩ := exists_gone hstraight hfound
  refine ⟨hstraight, hfound, w', hrun, fun id => ?_⟩
  have hrefuses := refuses_of_not_hasRoom hstraight.characters hstraight.named hroom w' id
  refine ⟨fun habsent => ?_, hrefuses⟩
  have hboth := habsent.1.symm.trans hrefuses.1
  cases hboth

end Store

end LicenseDepot
