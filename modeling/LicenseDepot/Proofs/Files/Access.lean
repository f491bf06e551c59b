import LicenseDepot.Files.Access
import LicenseDepot.Proofs.Files.Walk
import Mathlib.Data.String.Basic

/-!
# Access to files, one operation after another

What one access does is seen by the next. A file is read as it has been written, along whatever
links the path leads (`read_write`), and a directory that admits a name gives access to a file under
that name.
-/

namespace LicenseDepot

theorem Path.byteLength_append (s u : String) :
    Path.byteLength (s ++ u) = Path.byteLength s + Path.byteLength u := by
  rw [byteLength, String.toList_append, Text.Utf8.encode_append, List.length_append]
  rfl

theorem Path.toText_child (p : Path) (name : String) :
    (p.child name).toText = Anchor.text p.anchor ++ "/".intercalate (p.parts ++ [name]) := by
  unfold toText child
  cases hparts : p.parts ++ [name] with
  | nil => simp at hparts
  | cons first rest => cases p.anchor <;> rfl

/-- Names are joined with a slash between them. -/
theorem Path.byteLength_intercalate_concat {parts : List String} (h : parts ≠ []) (name : String) :
    byteLength ("/".intercalate (parts ++ [name]))
      = byteLength ("/".intercalate parts) + 1 + byteLength name := by
  have hslash : byteLength "/" = 1 := by decide
  induction parts with
  | nil => exact absurd rfl h
  | cons first rest ih =>
    cases rest with
    | nil =>
      simp only [List.cons_append, List.nil_append, String.intercalate_cons_cons,
        String.intercalate_singleton, byteLength_append, hslash]
    | cons second rest =>
      have hrest := ih (by simp)
      simp only [List.cons_append, String.intercalate_cons_cons, byteLength_append, hslash]
        at hrest ⊢
      omega

/-- The text of a path with a further name is longer by that name and a slash. -/
theorem Path.byteLength_toText_child {p : Path} (h : p.parts ≠ []) (name : String) :
    byteLength (p.child name).toText = byteLength p.toText + 1 + byteLength name := by
  have htext : p.toText = Anchor.text p.anchor ++ "/".intercalate p.parts := by
    unfold toText
    split
    · contradiction
    · rfl
  rw [toText_child, htext, byteLength_append, byteLength_append, byteLength_intercalate_concat h]
  omega

/-- The text of a path is no longer than that of a name in its directory. -/
theorem Path.byteLength_toText_le_child (p : Path) {name : String} (h : 0 < byteLength name) :
    byteLength p.toText ≤ byteLength (p.child name).toText := by
  by_cases hparts : p.parts = []
  · have hpoint : byteLength "." = 1 := by decide
    rw [toText_child, hparts, List.nil_append, String.intercalate_singleton, byteLength_append]
    unfold toText
    rw [hparts]
    split
    · rw [hpoint]
      omega
    · have hempty : byteLength ("/".intercalate []) = 0 := by decide
      rw [byteLength_append, hempty]
      omega
  · rw [byteLength_toText_child hparts]
    omega

theorem Step.ofPath_child {name : String} (h : name ≠ "..") (p : Path) :
    Step.ofPath (p.child name) = Step.ofPath p ++ [.down name] := by
  unfold Step.ofPath
  rw [Path.child, List.map_append, List.map_singleton, if_neg h]

namespace Disk

variable {d d' : Disk} {p : Path} {l : Location} {b content : Bytes} {purpose : Purpose} {s : Spot}

theorem locate_eq_ok_iff :
    d.locate purpose p = .ok s ↔
      checkPath p = .ok () ∧ d.tree.Walks purpose linkLimit (d.start p) (Step.ofPath p) s := by
  rw [locate, bind_eq_ok_iff]
  constructor
  · rintro ⟨⟨⟩, hcheck, hwalk⟩
    exact ⟨hcheck, FileTree.walk_eq_ok_iff.1 (mapError_eq_ok_iff.1 hwalk)⟩
  · rintro ⟨hcheck, hwalk⟩
    exact ⟨(), hcheck, mapError_eq_ok_iff.2 (FileTree.walk_eq_ok_iff.2 hwalk)⟩

theorem hasNul_of_checkPath (h : checkPath p = .ok ()) : p.hasNul = false := by
  unfold checkPath at h
  split at h
  · cases h
  · rename_i hnul
    exact Bool.eq_false_iff.2 hnul

theorem locate_ne_nul (h : p.hasNul = false) (purpose : Purpose) :
    d.locate purpose p ≠ .error .nul := by
  unfold locate checkPath
  rw [if_neg (Bool.eq_false_iff.1 h)]
  split
  · exact fun heq => nomatch heq
  · show (d.tree.walk purpose linkLimit (d.start p) (Step.ofPath p)).mapError _ ≠ _
    cases d.tree.walk purpose linkLimit (d.start p) (Step.ofPath p) with
    | error e => exact fun heq => nomatch heq
    | ok s => exact fun heq => nomatch heq

/-- A directory is not refused for the characters of its path unless it has such a character. -/
theorem list_ne_nul (h : p.hasNul = false) : d.list p ≠ .error .nul := by
  have hlocate := d.locate_ne_nul h .target
  unfold list
  split
  · rename_i hfault
    rintro ⟨⟩
    exact hlocate hfault
  · exact fun heq => nomatch heq
  · exact fun heq => nomatch heq
  · exact fun heq => nomatch heq

/-- What a path leads to stays where it is when more is put into the tree. -/
theorem locate_of_more {t : FileTree} (hmore : ∀ m x, d.tree.get? m = some x → t.get? m = some x)
    {n : Node} (h : d.locate purpose p = .ok (.found l n)) :
    { d with tree := t }.locate purpose p = .ok (.found l n) := by
  obtain ⟨hcheck, hwalk⟩ := locate_eq_ok_iff.1 h
  exact locate_eq_ok_iff.2 ⟨hcheck, hwalk.mono hmore⟩

theorem read_eq_ok_iff :
    d.read p = .ok b ↔ ∃ l, d.locate .target p = .ok (.found l (.file b)) := by
  unfold read
  split
  · rename_i hlocate
    simp [hlocate]
  · rename_i l old hlocate
    constructor
    · intro h
      cases h
      exact ⟨l, hlocate⟩
    · rintro ⟨m, hm⟩
      rw [hlocate] at hm
      cases hm
      rfl
  · rename_i hlocate
    simp [hlocate]
  · rename_i hlocate
    simp [hlocate]
  · rename_i hlocate
    simp [hlocate]

theorem holds_eq_true_iff : d.holds p = .ok true ↔
    ∃ l n, d.locate .target p = .ok (.found l n) ∧ ∀ target, n ≠ .link target := by
  unfold holds
  split
  · simp_all
  · simp_all
  · simp_all
  · simp_all
  · split
    · simp_all
    · simp_all
  · simp_all

/-- A file that can be read is there. -/
theorem holds_of_read (h : d.read p = .ok b) : d.holds p = .ok true := by
  obtain ⟨l, hlocate⟩ := read_eq_ok_iff.1 h
  rw [holds, hlocate]

/-- A path is refused for its characters or its length, or where the walk along it fails. -/
theorem fault_of_locate {e : AccessFault} (h : d.locate purpose p = .error e) :
    e = .nul ∨ e = .refused .nameTooLong p ∨
      ∃ f, d.tree.walk purpose linkLimit (d.start p) (Step.ofPath p) = .error f ∧
        e = .refused f p := by
  rcases bind_eq_error_iff.1 h with hcheck | ⟨⟨⟩, -, hwalk⟩
  · unfold checkPath at hcheck
    split at hcheck
    · cases hcheck
      exact .inl rfl
    · split at hcheck
      · cases hcheck
        exact .inr (.inl rfl)
      · cases hcheck
  · cases hresult : d.tree.walk purpose linkLimit (d.start p) (Step.ofPath p) with
    | ok s =>
      rw [hresult] at hwalk
      cases hwalk
    | error f =>
      rw [hresult] at hwalk
      cases hwalk
      exact .inr (.inr ⟨f, rfl, rfl⟩)

/-- Whether a path leads to something can be told unless something is too long. -/
theorem fault_of_holds {e : AccessFault} (h : d.holds p = .error e) :
    e = .refused .nameTooLong p := by
  unfold holds at h
  split at h
  · cases h
  · cases h
  · cases h
  · cases h
  · rename_i hlocate
    split at h
    · cases h
    · rename_i habsent
      cases h
      rcases fault_of_locate hlocate with heq | heq | ⟨f, hwalk, heq⟩
      · cases heq
      · exact heq
      · cases heq
        rw [(FileTree.fault_of_walk_target hwalk).resolve_left habsent]
  · rename_i hnul hrefused hlocate
    cases h
    rcases fault_of_locate hlocate with heq | heq | ⟨f, -, heq⟩
    · exact absurd heq hnul
    · exact absurd heq (hrefused _ _)
    · exact absurd heq (hrefused _ _)

/-- A path that is too long is refused to whoever asks whether it leads to something. -/
theorem holds_of_too_long (hnul : p.hasNul = false) (h : pathLimit ≤ Path.byteLength p.toText) :
    d.holds p = .error (.refused .nameTooLong p) := by
  have hcheck : checkPath p = .error (.refused .nameTooLong p) := by
    rw [checkPath, hnul, if_neg Bool.false_ne_true, if_pos h]
  rw [holds, locate, hcheck]
  rfl

/-- A name that is too long is refused to whoever asks whether there is something under it. -/
theorem holds_of_long_name {name : String} {rest : List Step} (hcheck : checkPath p = .ok ())
    (hdir : d.tree.get? (d.start p) = some .directory) (hsteps : Step.ofPath p = .down name :: rest)
    (hname : nameLimit < Path.byteLength name) : d.holds p = .error (.refused .nameTooLong p) := by
  have hwalk : d.tree.walk .target linkLimit (d.start p) (Step.ofPath p) = .error .nameTooLong := by
    rw [hsteps, FileTree.walk]
    simp only [hdir, if_pos hname]
  rw [holds, locate, hcheck, hwalk]
  rfl

/-- The names that are listed are those of the directory, each of them once. -/
theorem exists_of_list {names : List String} (h : d.list p = .ok names) :
    ∃ l, d.locate .target p = .ok (.found l .directory) ∧ names.Perm (d.tree.names l) ∧
      names.Nodup := by
  unfold list at h
  split at h
  · cases h
  · rename_i l hlocate
    cases h
    have hperm := List.mergeSort_perm (d.tree.names l) fun a b => !decide (b < a)
    exact ⟨l, hlocate, hperm, hperm.nodup_iff.2 (d.tree.nodup_names l)⟩
  · cases h
  · cases h

/-- What is listed is what there is in the directory. -/
theorem mem_list_iff {names : List String} (hfound : d.locate .target p = .ok (.found l .directory))
    (h : d.list p = .ok names) {name : String} :
    name ∈ names ↔ ∃ x, d.tree.get? (l ++ [name]) = some x := by
  obtain ⟨m, hm, hperm, -⟩ := exists_of_list h
  rw [hfound] at hm
  cases hm
  rw [hperm.mem_iff, FileTree.mem_names_iff]

/-- Names are sorted by their characters. -/
theorem pairwise_sorted (names : List String) :
    (names.mergeSort fun a b => !decide (b < a)).Pairwise (· ≤ ·) := by
  have hle : ∀ a b : String, (!decide (b < a)) = true ↔ a ≤ b := by
    intro a b
    rw [Bool.not_eq_true', decide_eq_false_iff_not, not_lt]
  refine (List.pairwise_mergeSort ?_ ?_ names).imp fun h => (hle _ _).1 h
  · intro a b c hab hbc
    rw [hle] at hab hbc ⊢
    exact le_trans hab hbc
  · intro a b
    rw [Bool.or_eq_true, hle, hle]
    exact le_total a b

/-- Names are listed in increasing order. -/
theorem pairwise_of_list {names : List String} (h : d.list p = .ok names) :
    names.Pairwise (· < ·) := by
  obtain ⟨l, hfound, -, hnodup⟩ := exists_of_list h
  rw [list, hfound] at h
  cases h
  exact ((pairwise_sorted _).and hnodup).imp fun hab => lt_of_le_of_ne hab.1 hab.2

/-- The names that are listed are in order. -/
theorem list_of_perm {names : List String} (h : d.locate .target p = .ok (.found l .directory))
    (hnames : (d.tree.names l).Perm names) (hsorted : names.Pairwise (· < ·)) :
    d.list p = .ok names := by
  rw [list, h]
  refine congrArg Except.ok (List.Perm.eq_of_pairwise ?_ (pairwise_sorted _)
    (hsorted.imp le_of_lt) ((List.mergeSort_perm _ _).trans hnames))
  intro a b _ _ hab hba
  exact le_antisymm hab hba

/-- Writing puts a file where the path comes to its end: in the place of a file, or under a name
that is free. -/
theorem exists_of_write (h : d.write p content = .ok d') :
    ∃ s parent name, d.locate .writing p = .ok s ∧ s.location = parent ++ [name] ∧
      d.tree.get? parent = some .directory ∧
      (∀ x, d.tree.get? (parent ++ [name]) = some x → ∃ old, x = .file old) ∧
      d' = { d with tree := d.tree.put parent name (.file content) } := by
  unfold write at h
  split at h
  · cases h
  · rename_i l old hlocate
    split at h
    · rename_i name hname
      cases h
      have hl : l.dropLast ++ [name] = l := List.dropLast_append_getLast? _ hname
      have hfile := (locate_eq_ok_iff.1 hlocate).2.get?
      refine ⟨_, l.dropLast, name, hlocate, hl.symm, FileTree.get?_dropLast hfile, ?_, rfl⟩
      intro x hx
      rw [hl, hfile] at hx
      cases hx
      exact ⟨old, rfl⟩
    · cases h
  · cases h
  · cases h
  · rename_i parent name hlocate
    cases h
    obtain ⟨hdir, hfree⟩ := (locate_eq_ok_iff.1 hlocate).2.vacant_get?
    refine ⟨_, parent, name, hlocate, rfl, hdir, ?_, rfl⟩
    intro x hx
    rw [hfree] at hx
    cases hx

/-- A file that has been written along a path is what the path leads to, whatever is to be done with
it next. -/
theorem locate_write (h : d.write p content = .ok d') :
    ∃ s, d.locate .writing p = .ok s ∧ ∀ purpose ≠ .itself,
      d'.locate purpose p = .ok (.found s.location (.file content)) := by
  obtain ⟨s, parent, name, hlocate, hs, hdir, hfile, rfl⟩ := exists_of_write h
  obtain ⟨hcheck, hwalk⟩ := locate_eq_ok_iff.1 hlocate
  have hput := FileTree.get?_put (n := .file content) (FileTree.isDirectory_iff.2 hdir)
    (FileTree.isDirectory_eq_false hfile)
  refine ⟨s, hlocate, fun purpose hpurpose => locate_eq_ok_iff.2 ⟨hcheck, ?_⟩⟩
  rw [hs]
  refine hwalk.of_file hpurpose ?_ ?_ hfile hs
  · intro m hm
    rw [hput, if_neg hm]
  · rw [hput, if_pos rfl]

/-- What has been written along a path is read along it. -/
theorem read_write (h : d.write p content = .ok d') : d'.read p = .ok content := by
  obtain ⟨s, -, hlocate⟩ := locate_write h
  exact read_eq_ok_iff.2 ⟨s.location, hlocate .target Purpose.noConfusion⟩

/-! Files in a directory. -/

/-- What can be asked for in a directory cannot be asked for unless the directory can. -/
theorem checkPath_of_child {directory : Path} {name : String} (hname : 0 < Path.byteLength name)
    (h : checkPath (directory.child name) = .ok ()) : checkPath directory = .ok () := by
  have hnul := hasNul_of_checkPath h
  have hdirectory : directory.hasNul = false := by
    unfold Path.hasNul at hnul ⊢
    rw [Path.child, List.any_append, Bool.or_eq_false_iff] at hnul
    exact hnul.1
  unfold checkPath at h ⊢
  rw [hnul, if_neg Bool.false_ne_true] at h
  rw [hdirectory, if_neg Bool.false_ne_true]
  split at h
  · cases h
  · rename_i hlimit
    have hlength := Path.byteLength_toText_le_child directory hname
    rw [if_neg (by omega)]

/-- A name that leads to something in a directory is one of those listed there. -/
theorem exists_list_of_locate_child {directory : Path} {name : String} {n : Node}
    (hname : 0 < Path.byteLength name) (hproper : name ≠ "..")
    (h : d.locate .target (directory.child name) = .ok (.found l n)) :
    ∃ names, d.list directory = .ok names ∧ name ∈ names := by
  obtain ⟨hcheck, hwalk⟩ := locate_eq_ok_iff.1 h
  rw [Step.ofPath_child hproper] at hwalk
  obtain ⟨left, m, hfirst, hlast⟩ := hwalk.of_append_down
  have hfound : d.locate .target directory = .ok (.found m .directory) :=
    locate_eq_ok_iff.2 ⟨checkPath_of_child hname hcheck, hfirst⟩
  have hlist : d.list directory
      = .ok ((d.tree.names m).mergeSort fun a b => !decide (b < a)) := by
    rw [list, hfound]
  exact ⟨_, hlist, (mem_list_iff hfound hlist).2 hlast.exists_get?_of_down⟩

theorem hasNul_child {directory : Path} {name : String} (h : directory.hasNul = false)
    (hname : '\x00' ∉ name.toList) : (directory.child name).hasNul = false := by
  unfold Path.hasNul at h ⊢
  rw [Path.child, List.any_append, h]
  simpa using hname

/-- A path that is not too long can be asked for unless it has a character that no file system
takes. -/
theorem checkPath_of_lt (hnul : p.hasNul = false) (h : Path.byteLength p.toText < pathLimit) :
    checkPath p = .ok () := by
  unfold checkPath
  rw [hnul, if_neg Bool.false_ne_true, if_neg (Nat.not_le.2 h)]

theorem endsWithName_child {directory : Path} {name : String} (h : name ≠ "..") :
    endsWithName (directory.child name) = true := by
  unfold endsWithName Path.child
  rw [List.getLast?_concat]
  simpa using h

/-- Whether a path leads to a directory in which a name can be asked for. -/
structure Admits (d : Disk) (directory : Path) (l : Location) (name : String) : Prop where
  found : d.locate .target directory = .ok (.found l .directory)
  path : Path.byteLength (directory.child name).toText < pathLimit
  characters : '\x00' ∉ name.toList
  length : Path.byteLength name ≤ nameLimit
  proper : name ≠ ".."

namespace Admits

variable {directory : Path} {name : String}

theorem checkPath_child (h : d.Admits directory l name) :
    checkPath (directory.child name) = .ok () :=
  checkPath_of_lt (hasNul_child (hasNul_of_checkPath (locate_eq_ok_iff.1 h.found).1) h.characters)
    h.path

theorem locate_vacant (h : d.Admits directory l name) (hfree : d.tree.get? (l ++ [name]) = none)
    (purpose : Purpose) : d.locate purpose (directory.child name) = .ok (.vacant l name) := by
  have hwalk := FileTree.walk_append_vacant (locate_eq_ok_iff.1 h.found).2 h.length hfree purpose
  rw [← Step.ofPath_child h.proper] at hwalk
  exact locate_eq_ok_iff.2 ⟨h.checkPath_child, FileTree.walk_eq_ok_iff.1 hwalk⟩

theorem locate_file (h : d.Admits directory l name)
    (hfile : d.tree.get? (l ++ [name]) = some (.file b)) (purpose : Purpose) :
    d.locate purpose (directory.child name) = .ok (.found (l ++ [name]) (.file b)) := by
  have hwalk := FileTree.walk_append_file (locate_eq_ok_iff.1 h.found).2 h.length hfile purpose
  rw [← Step.ofPath_child h.proper] at hwalk
  exact locate_eq_ok_iff.2 ⟨h.checkPath_child, FileTree.walk_eq_ok_iff.1 hwalk⟩

theorem read_file (h : d.Admits directory l name)
    (hfile : d.tree.get? (l ++ [name]) = some (.file b)) :
    d.read (directory.child name) = .ok b :=
  read_eq_ok_iff.2 ⟨_, h.locate_file hfile .target⟩

theorem holds_vacant (h : d.Admits directory l name) (hfree : d.tree.get? (l ++ [name]) = none) :
    d.holds (directory.child name) = .ok false := by
  rw [holds, h.locate_vacant hfree .target]

/-- A file can be written where there is none, or another one. -/
theorem write_child (h : d.Admits directory l name)
    (hfile : ∀ x, d.tree.get? (l ++ [name]) = some x → ∃ old, x = .file old) (content : Bytes) :
    d.write (directory.child name) content
      = .ok { d with tree := d.tree.put l name (.file content) } := by
  cases hx : d.tree.get? (l ++ [name]) with
  | none => rw [write, h.locate_vacant hx .writing]
  | some x =>
    obtain ⟨old, rfl⟩ := hfile x hx
    rw [write, h.locate_file hx .writing]
    simp

theorem unlink_file (h : d.Admits directory l name)
    (hfile : d.tree.get? (l ++ [name]) = some (.file b)) :
    d.unlink (directory.child name) = .ok { d with tree := d.tree.prune (l ++ [name]) } := by
  rw [unlink, if_pos (endsWithName_child h.proper), h.locate_file hfile .itself]

theorem unlink_vacant (h : d.Admits directory l name)
    (hfree : d.tree.get? (l ++ [name]) = none) :
    d.unlink (directory.child name) = .error (.refused .missing (directory.child name)) := by
  rw [unlink, if_pos (endsWithName_child h.proper), h.locate_vacant hfree .itself]

end Admits

/-- The files of a root directory in which there is one file. -/
def ofFile (name : String) (content : Bytes) : Disk where
  tree := ⟨[([name], .file content)], by simp, by simp [IsClosed]⟩
  here := []

theorem get?_ofFile (name : String) (content : Bytes) :
    (ofFile name content).tree.get? ([] ++ [name]) = some (.file content) := by
  simp [ofFile, FileTree.get?]

theorem get?_ofFile_of_ne {name other : String} (h : other ≠ name) (content : Bytes) :
    (ofFile name content).tree.get? ([] ++ [other]) = none := by
  have hne : ([other] == [name]) = false := by simpa using h
  simp [ofFile, FileTree.get?, List.lookup_cons, hne]

theorem locate_root (d : Disk) : d.locate .target ⟨.root, []⟩ = .ok (.found [] .directory) := by
  refine locate_eq_ok_iff.2 ⟨by decide, ?_⟩
  exact .arrive FileTree.get?_nil

theorem byteLength_child_root (name : String) :
    Path.byteLength (Path.child ⟨.root, []⟩ name).toText = 1 + Path.byteLength name := by
  have htext : (Path.child ⟨.root, []⟩ name).toText.toList = '/' :: name.toList := by
    simp [Path.toText, Path.child, Path.Anchor.text]
  rw [Path.byteLength, htext, Text.Utf8.encode_cons, List.length_append]
  rfl

theorem list_ofFile (name : String) (content : Bytes) :
    (ofFile name content).list ⟨.root, []⟩ = .ok [name] := by
  rw [list, locate_root]
  simp [ofFile, FileTree.names]

end Disk

end LicenseDepot
