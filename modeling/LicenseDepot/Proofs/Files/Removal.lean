import LicenseDepot.Proofs.Files.Change
import LicenseDepot.Proofs.Text.Utf8

/-!
# Paths after a removal

What has been removed is not found along its path any more, and neither is anything in it: the walk
finds that something is missing, or comes to a name that is free (`Disk.lacks_child`). A path that
leads straight to its name, with no link and no double point on the way, leads to the same directory
after that has been emptied, so the directory itself can be removed too
(`Disk.removeTree_straight`).
-/

namespace LicenseDepot

namespace FileTree

variable {t t' : FileTree} {links : Nat} {here l : Location} {steps : List Step} {n : Node}

/-! A path and what it leads to. -/

/-- A path that is no link itself leads to what it names. -/
theorem Walks.target_of_itself (h : Walks t .itself links here steps (.found l n))
    (hlink : ∀ target, n ≠ .link target) : Walks t .target links here steps (.found l n) := by
  have hslash : ∀ rest : List Step, ¬ (Purpose.target = .writing ∧ rest = [.slash]) :=
    fun _ hno => Purpose.noConfusion hno.1
  have hitself : ∀ rest : List Step, ¬ (Purpose.target = .itself ∧ rest = []) :=
    fun _ hno => Purpose.noConfusion hno.1
  generalize hs : Spot.found l n = s at h
  induction h with
  | arrive hn => exact .arrive hn
  | stay hdir hstep _ ih => exact .stay hdir hstep (ih hs)
  | up hdir _ ih => exact .up hdir (ih hs)
  | vacant => cases hs
  | itself =>
    cases hs
    exact absurd rfl (hlink _)
  | follow hdir hname _ hto _ _ ih => exact .follow hdir hname (hslash _) hto (hitself _) (ih hs)
  | down hdir hname _ hx hno _ ih => exact .down hdir hname (hslash _) hx hno (ih hs)

/-- A path that leads to something names something, the same thing or a link. -/
theorem Walks.exists_itself (h : Walks t .target links here steps (.found l n)) :
    ∃ l' n', Walks t .itself links here steps (.found l' n') := by
  have hslash : ∀ rest : List Step, ¬ (Purpose.itself = .writing ∧ rest = [.slash]) :=
    fun _ hno => Purpose.noConfusion hno.1
  generalize hs : Spot.found l n = s at h
  induction h with
  | arrive hn => exact ⟨_, _, .arrive hn⟩
  | stay hdir hstep _ ih =>
    obtain ⟨l', n', hrest⟩ := ih hs
    exact ⟨l', n', .stay hdir hstep hrest⟩
  | up hdir _ ih =>
    obtain ⟨l', n', hrest⟩ := ih hs
    exact ⟨l', n', .up hdir hrest⟩
  | vacant => cases hs
  | itself _ _ _ hpurpose => cases hpurpose
  | @follow links here name rest target s hdir hname _ hlink _ _ ih =>
    by_cases hrest : rest = []
    · subst hrest
      exact ⟨_, _, .itself hdir hname hlink rfl⟩
    · obtain ⟨l', n', hwalk⟩ := ih hs
      exact ⟨l', n', .follow hdir hname (hslash _) hlink (fun hno => hrest hno.2) hwalk⟩
  | down hdir hname _ hx hno _ ih =>
    obtain ⟨l', n', hrest⟩ := ih hs
    exact ⟨l', n', .down hdir hname (hslash _) hx hno hrest⟩

/-- A walk along one name to what is under it, be it a link, ends there. -/
theorem Walks.eq_of_itself_down {name : String}
    (h : Walks t .itself links here [.down name] (.found l n)) :
    l = here ++ [name] ∧ Path.byteLength name ≤ nameLimit := by
  cases h with
  | stay _ hstep => rcases hstep with heq | heq <;> cases heq
  | itself _ hname => exact ⟨rfl, hname⟩
  | follow _ _ _ _ hitself => exact absurd ⟨rfl, rfl⟩ hitself
  | down _ hname _ _ _ hrest =>
    cases hrest
    exact ⟨rfl, hname⟩

/-! Paths without links on the way. -/

/-- The way down to a directory, name by name. -/
theorem walks_down {names : List String} (hnames : ∀ name ∈ names, Path.byteLength name ≤ nameLimit)
    (h : t.get? (here ++ names) = some .directory) :
    Walks t .itself links here (names.map .down) (.found (here ++ names) .directory) := by
  induction names generalizing here with
  | nil =>
    rw [List.append_nil] at h ⊢
    exact .arrive h
  | cons name rest ih =>
    rw [List.append_cons] at h ⊢
    have hbelow : t.get? (here ++ [name]) = some .directory := by
      by_cases hrest : rest = []
      · rw [hrest, List.append_nil] at h
        exact h
      · exact get?_of_isPrefix h (List.prefix_append _ _) (by simpa using hrest)
    refine .down (isDirectory_iff.1 (isDirectory_parent hbelow))
      (hnames name List.mem_cons_self) ?_ hbelow (fun _ heq => Node.noConfusion heq)
      (ih (fun m hm => hnames m (List.mem_cons_of_mem name hm)) h)
    rintro ⟨heq, -⟩
    cases heq

/-- With no link on the way, the way down leads to the names it passes through. -/
theorem Walks.eq_of_itself_straight {names : List String}
    (hstraight : ∀ front, front ≠ [] → front <+: names → front ≠ names →
      ∀ target, t.get? (here ++ front) ≠ some (.link target))
    (h : Walks t .itself links here (names.map .down) (.found l n)) :
    l = here ++ names ∧ ∀ name ∈ names, Path.byteLength name ≤ nameLimit := by
  induction names generalizing here links with
  | nil =>
    cases h
    simp
  | cons name rest ih =>
    rw [List.map_cons] at h
    generalize hmore : rest.map Step.down = more at h
    cases h with
    | stay _ hstep => rcases hstep with heq | heq <;> cases heq
    | itself _ hname =>
      rw [List.map_eq_nil_iff.1 hmore]
      simpa using hname
    | follow _ _ _ hlink hitself _ =>
      have hne : [name] ≠ name :: rest := by
        intro heq
        cases heq
        exact hitself ⟨rfl, hmore.symm⟩
      exact absurd hlink (hstraight [name] (by simp) (by simp) hne _)
    | down _ hname _ _ _ hrest =>
      subst hmore
      have hbelow : ∀ front, front ≠ [] → front <+: rest → front ≠ rest →
          ∀ target, t.get? (here ++ [name] ++ front) ≠ some (.link target) := by
        intro front _ hpre hne target
        rw [List.append_assoc, List.singleton_append]
        refine hstraight (name :: front) (by simp) ?_ (by simpa using hne) target
        rw [List.cons_prefix_cons]
        exact ⟨rfl, hpre⟩
      obtain ⟨rfl, hnames⟩ := ih hbelow hrest
      refine ⟨List.append_assoc _ _ _, ?_⟩
      rw [List.forall_mem_cons]
      exact ⟨hname, hnames⟩

end FileTree

namespace Disk

variable {d d' : Disk} {p directory : Path} {purpose : Purpose} {l : Location} {n : Node}
  {name : String}

/-- What a path that is no link names is what it leads to. -/
theorem locate_target_of_itself (h : d.locate .itself p = .ok (.found l n))
    (hlink : ∀ target, n ≠ .link target) : d.locate .target p = .ok (.found l n) := by
  obtain ⟨hcheck, hwalk⟩ := locate_eq_ok_iff.1 h
  exact locate_eq_ok_iff.2 ⟨hcheck, hwalk.target_of_itself hlink⟩

/-- A path that leads to something names something. -/
theorem exists_locate_itself (h : d.locate .target p = .ok (.found l n)) :
    ∃ l' n', d.locate .itself p = .ok (.found l' n') := by
  obtain ⟨hcheck, hwalk⟩ := locate_eq_ok_iff.1 h
  obtain ⟨l', n', hwalk'⟩ := hwalk.exists_itself
  exact ⟨l', n', locate_eq_ok_iff.2 ⟨hcheck, hwalk'⟩⟩

/-- The way to a name that is there leads through its directory. -/
theorem exists_walks_directory (hproper : name ≠ "..")
    (h : d.locate .itself (directory.child name) = .ok (.found l n)) :
    ∃ m, d.tree.Walks .target linkLimit (d.start directory) (Step.ofPath directory)
      (.found m .directory) ∧ l = m ++ [name] ∧ Path.byteLength name ≤ nameLimit := by
  obtain ⟨-, hwalk⟩ := locate_eq_ok_iff.1 h
  rw [Step.ofPath_child hproper] at hwalk
  obtain ⟨left, m, hfirst, hlast⟩ := hwalk.of_append_down
  exact ⟨m, hfirst, hlast.eq_of_itself_down⟩

/-! Paths that lead to nothing. -/

/-- Whether a path leads to nothing, because something on the way is missing or because its last
name is free. -/
def Lacks (d : Disk) (purpose : Purpose) (p : Path) : Prop :=
  d.locate purpose p = .error (.refused .missing p) ∨
    ∃ m name, d.locate purpose p = .ok (.vacant m name)

theorem Lacks.holds (h : d.Lacks .target p) : d.holds p = .ok false := by
  unfold Disk.holds
  rcases h with hmissing | ⟨m, name, hvacant⟩
  · rw [hmissing]
    rfl
  · rw [hvacant]

theorem Lacks.list (h : d.Lacks .target p) : d.list p = .error (.refused .missing p) := by
  unfold Disk.list
  rcases h with hmissing | ⟨m, name, hvacant⟩
  · rw [hmissing]
  · rw [hvacant]

theorem Lacks.removeTree (h : d.Lacks .itself p) :
    d.removeTree p = (d, .error (.refused .missing p)) := by
  unfold Disk.removeTree
  rcases h with hmissing | ⟨m, name, hvacant⟩
  · rw [hmissing]
  · rw [hvacant]

/-- Where there is less than before, and nothing under a name in a directory, the path of that name
leads to nothing. -/
theorem lacks_child (hhere : d'.here = d.here)
    (hless : ∀ m x, d'.tree.get? m = some x → d.tree.get? m = some x)
    (hdir : d.tree.Walks .target linkLimit (d.start directory) (Step.ofPath directory)
      (.found l .directory))
    (hproper : name ≠ "..") (hcheck : checkPath (directory.child name) = .ok ())
    (hname : Path.byteLength name ≤ nameLimit) (hfree : d'.tree.get? (l ++ [name]) = none)
    (purpose : Purpose) : d'.Lacks purpose (directory.child name) := by
  have hstart : d'.start (directory.child name) = d.start directory := by
    rw [start, start, hhere]
    rfl
  have hlocate : ∀ r, d'.tree.walk purpose linkLimit (d.start directory)
      (Step.ofPath directory ++ [.down name]) = r →
      d'.locate purpose (directory.child name)
        = r.mapError (.refused · (directory.child name)) := by
    rintro r rfl
    rw [locate, hcheck, hstart, Step.ofPath_child hproper]
    rfl
  -- The way to the directory may lead through links that are gone; then it ends before the name.
  rcases hdir.walk_append_of_less hless with ⟨left, hleft⟩ | ⟨-, hmissing⟩
  · cases hl : d'.tree.get? l with
    | none =>
      exact .inl (hlocate _ ((hleft _ _).trans (FileTree.walk_of_get?_none hl _ _ _)))
    | some x =>
      have hx := hless l x hl
      rw [hdir.get?] at hx
      cases hx
      exact .inr ⟨l, name, hlocate _ ((hleft _ _).trans
        (FileTree.walk_of_walks (.vacant hl hname hfree)))⟩
  · exact .inl (hlocate _ (hmissing _ _))

/-! Names that are removed from a directory. -/

/-- What a name in a directory leads to is gone with what it names. -/
theorem lacks_of_unlink_child (hproper : name ≠ "..")
    (h : d.unlink (directory.child name) = .ok d') (purpose : Purpose) :
    d'.Lacks purpose (directory.child name) := by
  obtain ⟨l, n, hnamed, -, hafter, helsewhere⟩ := unlink_changes h
  obtain ⟨m, hdir, rfl, hname⟩ := exists_walks_directory hproper hnamed
  refine lacks_child helsewhere.here (fun k x hx => ?_) hdir hproper
    (locate_eq_ok_iff.1 hnamed).1 hname hafter purpose
  have hk : k ≠ m ++ [name] := by
    rintro rfl
    rw [hafter] at hx
    cases hx
  rw [← helsewhere.get? k hk]
  exact hx

/-- A path that names a directory leads to it. -/
theorem holds_of_directory (h : d.locate .itself p = .ok (.found l .directory)) :
    d.holds p = .ok true :=
  holds_eq_true_iff.2
    ⟨l, _, locate_target_of_itself h fun _ => Node.noConfusion, fun _ => Node.noConfusion⟩

/-- A path that names nothing leads to nothing. -/
theorem not_holds_of_unnamed (h : ∀ l n, d.locate .itself p ≠ .ok (.found l n)) :
    d.holds p ≠ .ok true := by
  intro hholds
  obtain ⟨l, n, htarget, -⟩ := holds_eq_true_iff.1 hholds
  obtain ⟨l', n', hitself⟩ := exists_locate_itself htarget
  exact h l' n' hitself

/-- A directory is not removed as a file is. -/
theorem unlink_child_directory (hproper : name ≠ "..")
    (h : d.locate .itself (directory.child name) = .ok (.found l .directory)) :
    d.unlink (directory.child name) = .error (.refused .isDirectory (directory.child name)) := by
  rw [unlink, if_pos (endsWithName_child hproper), h]

/-- Unless it is a directory, what a name in a directory leads to is gone after an attempt to remove
it, or was not there. -/
theorem holds_after_unlink_child {existed : Bool} (hproper : name ≠ "..")
    (hholds : d.holds (directory.child name) = .ok existed)
    (hfree : ∀ l, d.locate .itself (directory.child name) ≠ .ok (.found l .directory)) :
    ((d.unlink (directory.child name)).toOption.getD d).holds (directory.child name)
      = .ok false := by
  cases hunlink : d.unlink (directory.child name) with
  | ok d' => exact (lacks_of_unlink_child hproper hunlink .target).holds
  | error e =>
    have hunnamed : ∀ l n, d.locate .itself (directory.child name) ≠ .ok (.found l n) := by
      intro l n hl
      rw [unlink, if_pos (endsWithName_child hproper), hl] at hunlink
      cases n with
      | directory => exact hfree l hl
      | file content => cases hunlink
      | link target => cases hunlink
    change d.holds (directory.child name) = .ok false
    cases existed with
    | false => exact hholds
    | true => exact absurd hholds (not_holds_of_unnamed hunnamed)

/-! Directories that are removed with all that is in them. -/

/-- Whether a path leads straight to a name: no double point and no link is on the way, and no
character that no file system takes. -/
structure Straight (d : Disk) (p : Path) : Prop where
  named : p.parts ≠ []
  onward : ".." ∉ p.parts
  characters : p.hasNul = false
  unlinked : ∀ front, front ≠ [] → front <+: p.parts → front ≠ p.parts →
    ∀ target, d.tree.get? (d.start p ++ front) ≠ some (.link target)

namespace Straight

theorem ofPath (h : d.Straight p) : Step.ofPath p = p.parts.map .down := by
  unfold Step.ofPath
  refine List.map_congr_left fun part hpart => if_neg ?_
  rintro rfl
  exact h.onward hpart

/-- A straight path is that of its last name, which leads to no other directory. -/
theorem exists_child (h : d.Straight p) : ∃ last, last ≠ ".." ∧ p = p.parent.child last := by
  obtain ⟨front, last, hparts⟩ := (List.eq_nil_or_concat' p.parts).resolve_left h.named
  refine ⟨last, ?_, ?_⟩
  · rintro rfl
    exact h.onward (hparts ▸ List.mem_append_right _ List.mem_cons_self)
  · obtain ⟨anchor, parts⟩ := p
    subst hparts
    simp [Path.parent, Path.child]

/-- A straight path of one name. -/
theorem of_parts_eq_singleton (hparts : p.parts = [name]) (hup : name ≠ "..")
    (hnul : '\x00' ∉ name.toList) : d.Straight p where
  named := by
    rw [hparts]
    exact List.cons_ne_nil _ _
  onward := by
    rw [hparts, List.mem_singleton]
    exact Ne.symm hup
  characters := by
    rw [Path.hasNul, hparts]
    simpa using hnul
  unlinked front hsome hpre hless := by
    rw [hparts, List.prefix_cons_iff] at hpre
    rcases hpre with hnil | ⟨rest, rfl, hrest⟩
    · exact absurd hnil hsome
    · rw [List.prefix_nil.1 hrest, hparts] at hless
      exact absurd rfl hless

/-- A straight path leads to the directory at its own names. -/
theorem locate (h : d.Straight p) (hpath : Path.byteLength p.toText < pathLimit)
    (hnames : ∀ part ∈ p.parts, Path.byteLength part ≤ nameLimit)
    (hdir : d.tree.get? (d.start p ++ p.parts) = some .directory) :
    d.locate .itself p = .ok (.found (d.start p ++ p.parts) .directory) := by
  refine locate_eq_ok_iff.2 ⟨checkPath_of_lt h.characters hpath, ?_⟩
  rw [h.ofPath]
  exact FileTree.walks_down hnames hdir

/-- A straight path names what is at its own names. -/
theorem eq_of_locate (h : d.Straight p) (hfound : d.locate .itself p = .ok (.found l n)) :
    l = d.start p ++ p.parts ∧ ∀ name ∈ p.parts, Path.byteLength name ≤ nameLimit := by
  obtain ⟨-, hwalk⟩ := locate_eq_ok_iff.1 hfound
  rw [h.ofPath] at hwalk
  exact hwalk.eq_of_itself_straight h.unlinked

end Straight

/-- A directory to which a path leads straight is removed with all that is in it, and nothing else
is. -/
theorem removeTree_straight (hp : d.Straight p)
    (h : d.locate .itself p = .ok (.found l .directory)) :
    ∃ d', d.removeTree p = (d', .ok ()) ∧ d'.here = d.here ∧
      ∀ m, d'.tree.get? m = if l <+: m then none else d.tree.get? m := by
  obtain ⟨hcheck, hwalk⟩ := locate_eq_ok_iff.1 h
  obtain ⟨hl, hnames⟩ := hp.eq_of_locate h
  have hne : l ≠ [] := by
    rw [hl]
    exact List.append_ne_nil_of_right_ne_nil _ hp.named
  -- The directory stays where it is when it is emptied, since the way to it is straight.
  have hemptied :
      { d with tree := d.tree.clear l }.locate .itself p = .ok (.found l .directory) := by
    refine locate_eq_ok_iff.2 ⟨hcheck, ?_⟩
    rw [hp.ofPath]
    change (d.tree.clear l).Walks .itself linkLimit (d.start p) _ _
    rw [hl]
    apply FileTree.walks_down hnames
    rw [← hl, FileTree.get?_clear, if_neg fun hno => hno.2 rfl]
    exact hwalk.get?
  have hnone : (d.tree.clear l).names l = [] := by
    rw [List.eq_nil_iff_forall_not_mem]
    intro name hname
    obtain ⟨x, hx⟩ := FileTree.mem_names_iff.1 hname
    rw [FileTree.get?_clear, if_pos ⟨List.prefix_append _ _, by simp⟩] at hx
    cases hx
  have hremove : { d with tree := d.tree.clear l }.removeDirectory p
      = .ok { d with tree := (d.tree.clear l).prune l } := by
    obtain ⟨last, hlast, hchild⟩ := hp.exists_child
    have hgetLast : p.parts.getLast? = some last := by
      rw [hchild]
      exact List.getLast?_concat
    unfold removeDirectory
    rw [hgetLast]
    simp only [if_neg hlast, hemptied, hnone, List.isEmpty_nil, if_true]
  refine ⟨{ d with tree := (d.tree.clear l).prune l }, ?_, rfl, fun m => ?_⟩
  · unfold removeTree
    rw [h]
    dsimp only
    rw [hremove]
  · rw [FileTree.get?_prune hne, FileTree.get?_clear]
    by_cases hm : l <+: m
    · rw [if_pos hm, if_pos hm]
    · rw [if_neg hm, if_neg hm, if_neg fun hno => hm hno.1]

end Disk

/-! Directories in each other. -/

/-- Directories with one name, each in the one before. -/
def FileTree.nested (name : String) : Nat → FileTree
  | 0 => .empty
  | depth + 1 => (nested name depth).put (List.replicate depth name) name .directory

theorem FileTree.get?_nested (name : String) (depth : Nat) (m : Location) :
    (nested name depth).get? m
      = if m <+: List.replicate depth name then some .directory else none := by
  induction depth generalizing m with
  | zero => cases m <;> rfl
  | succ depth ih =>
    have hlast : ¬ List.replicate depth name ++ [name] <+: List.replicate depth name := by
      intro hpre
      have := hpre.length_le
      simp at this
    have hparent : (nested name depth).isDirectory (List.replicate depth name) = true := by
      rw [isDirectory_iff, ih, if_pos List.prefix_rfl]
    have hfree : (nested name depth).isDirectory (List.replicate depth name ++ [name]) = false := by
      rw [isDirectory, ih, if_neg hlast]
      rfl
    rw [nested, get?_put hparent hfree, ih, List.replicate_succ']
    simp only [List.prefix_concat_iff]
    split <;> simp_all

/-- A name of so many bytes. -/
def Path.nameOfLength (n : Nat) : String :=
  String.ofList (List.replicate n 'x')

theorem Path.byteLength_nameOfLength (n : Nat) : byteLength (nameOfLength n) = n := by
  rw [byteLength, nameOfLength, String.toList_ofList, Text.Utf8.length_encode_of_ascii]
  · exact List.length_replicate
  · intro c hc
    rw [List.eq_of_mem_replicate hc]
    decide

theorem Path.notMem_nameOfLength {c : Char} (h : c ≠ 'x') (n : Nat) :
    c ∉ (nameOfLength n).toList := by
  rw [nameOfLength, String.toList_ofList]
  exact fun hmem => h (List.eq_of_mem_replicate hmem)

theorem Path.nameOfLength_ne_up (n : Nat) : nameOfLength n ≠ ".." := by
  intro heq
  refine notMem_nameOfLength (c := '.') (by decide) n ?_
  rw [heq]
  decide

theorem Path.splitSlashes_of_notMem {s : List Char} (h : '/' ∉ s) : splitSlashes s = [s] := by
  induction s with
  | nil => rfl
  | cons c s ih =>
    rw [List.mem_cons, not_or] at h
    rw [splitSlashes, if_neg (Ne.symm h.1), ih h.2]

/-- A text without slashes is the path of one name, unless it leads nowhere. -/
theorem Path.ofText_of_notMem {s : String} (h : '/' ∉ s.toList) (hleads : leads s.toList = true) :
    ofText s = ⟨.here, [s]⟩ := by
  have hanchor : anchorOf s.toList = .here := by
    unfold anchorOf
    split
    · rename_i heq
      exact absurd (heq ▸ List.mem_cons_self) h
    · rename_i heq
      exact absurd (heq ▸ List.mem_cons_self) h
    · rename_i heq
      exact absurd (heq ▸ List.mem_cons_self) h
    · rfl
  rw [ofText, hanchor, splitSlashes_of_notMem h, List.filter_cons_of_pos hleads, List.filter_nil,
    List.map_singleton, String.ofList_toList]

theorem Path.ofText_nameOfLength (n : Nat) :
    ofText (nameOfLength (n + 1)) = ⟨.here, [nameOfLength (n + 1)]⟩ := by
  refine ofText_of_notMem (notMem_nameOfLength (by decide) _) ?_
  rw [nameOfLength, String.toList_ofList]
  simp [leads, List.replicate_succ]

/-- The path that passes through one name many times over. -/
def Path.repeated (name : String) (depth : Nat) : Path := ⟨.here, List.replicate depth name⟩

/-- Its text is as long as the names and the slashes between them. -/
theorem Path.byteLength_repeated (name : String) (depth : Nat) :
    byteLength (repeated name (depth + 1)).toText = (depth + 1) * byteLength name + depth := by
  induction depth with
  | zero =>
    rw [repeated, toText]
    simp [Anchor.text]
  | succ depth ih =>
    have hchild :=
      byteLength_toText_child (p := repeated name (depth + 1)) (by simp [repeated]) name
    have hsucc : (repeated name (depth + 1)).child name = repeated name (depth + 2) :=
      congrArg (Path.mk .here) List.replicate_succ'.symm
    rw [hsucc] at hchild
    rw [hchild, ih, Nat.succ_mul (depth + 1)]
    omega

/-- A disk with directories in each other and nothing else. -/
def Disk.nested (name : String) (depth : Nat) : Disk := ⟨.nested name depth, []⟩

theorem Disk.get?_repeated (name : String) {depth : Nat} {front : Location}
    (h : front <+: (Path.repeated name depth).parts) :
    (nested name depth).tree.get? ((nested name depth).start (.repeated name depth) ++ front)
      = some .directory :=
  (FileTree.get?_nested name depth front).trans (if_pos h)

theorem Disk.straight_repeated {name : String} {depth : Nat} (hdepth : depth ≠ 0)
    (hup : name ≠ "..") (hnul : '\x00' ∉ name.toList) :
    (Disk.nested name depth).Straight (.repeated name depth) where
  named := by simpa [Path.repeated] using hdepth
  onward hmem := hup (List.eq_of_mem_replicate hmem).symm
  characters := by simp [Path.hasNul, Path.repeated, hnul]
  unlinked front _ hpre _ target := by
    rw [get?_repeated name hpre]
    exact fun heq => nomatch heq

end LicenseDepot
