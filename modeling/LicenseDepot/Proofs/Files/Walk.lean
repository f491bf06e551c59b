import LicenseDepot.Files.Walk
import LicenseDepot.Proofs.Files.Tree
import LicenseDepot.Proofs.Outcome

/-!
# Walks that arrive

`Walks` says how a walk along a path comes to its end, one rule for each kind of step. A walk that
arrives only asks for what is there, so it arrives at the same place in a tree where there is more
(`Walks.mono`), and a file that has been written where a walk came to its end is what the next walk
finds (`Walks.of_file`). Where there is less, a walk arrives as before or finds something missing
(`Walks.walk_append_of_less`).
-/

namespace LicenseDepot

/-- The location that a walk has come to, whether there is anything or not. -/
def Spot.location : Spot → Location
  | .found l _ => l
  | .vacant parent name => parent ++ [name]

namespace FileTree

variable {t t' : FileTree} {purpose : Purpose} {links : Nat} {here l : Location} {steps : List Step}
  {s : Spot}

/-- A walk that comes to its end at a spot. -/
inductive Walks (t : FileTree) (purpose : Purpose) : Nat → Location → List Step → Spot → Prop
  | arrive {links here n} (hn : t.get? here = some n) :
    Walks t purpose links here [] (.found here n)
  | stay {links here step rest s} (hdir : t.get? here = some .directory)
      (hstep : step = .stay ∨ step = .slash) (hrest : Walks t purpose links here rest s) :
      Walks t purpose links here (step :: rest) s
  | up {links here rest s} (hdir : t.get? here = some .directory)
      (hrest : Walks t purpose links here.dropLast rest s) :
      Walks t purpose links here (.up :: rest) s
  | vacant {links here name} (hdir : t.get? here = some .directory)
      (hname : Path.byteLength name ≤ nameLimit) (hfree : t.get? (here ++ [name]) = none) :
      Walks t purpose links here [.down name] (.vacant here name)
  | itself {links here name target} (hdir : t.get? here = some .directory)
      (hname : Path.byteLength name ≤ nameLimit)
      (hlink : t.get? (here ++ [name]) = some (.link target)) (hpurpose : purpose = .itself) :
      Walks t purpose links here [.down name] (.found (here ++ [name]) (.link target))
  | follow {links here name rest target s} (hdir : t.get? here = some .directory)
      (hname : Path.byteLength name ≤ nameLimit)
      (hslash : ¬ (purpose = .writing ∧ rest = [.slash]))
      (hlink : t.get? (here ++ [name]) = some (.link target))
      (hitself : ¬ (purpose = .itself ∧ rest = []))
      (hrest : Walks t purpose links (if target.toList.head? = some '/' then [] else here)
        (Step.ofTarget target ++ rest) s) :
      Walks t purpose (links + 1) here (.down name :: rest) s
  | down {links here name rest x s} (hdir : t.get? here = some .directory)
      (hname : Path.byteLength name ≤ nameLimit)
      (hslash : ¬ (purpose = .writing ∧ rest = [.slash]))
      (hx : t.get? (here ++ [name]) = some x) (hlink : ∀ target, x ≠ .link target)
      (hrest : Walks t purpose links (here ++ [name]) rest s) :
      Walks t purpose links here (.down name :: rest) s

theorem walk_of_walks (h : Walks t purpose links here steps s) :
    t.walk purpose links here steps = .ok s := by
  induction h with
  | arrive hn => rw [walk, hn]
  | stay hdir hstep _ ih =>
    rcases hstep with rfl | rfl
    · rw [walk, hdir]
      exact ih
    · rw [walk, hdir]
      exact ih
  | up hdir _ ih =>
    rw [walk, hdir]
    exact ih
  | vacant hdir hname hfree =>
    rw [walk, hdir]
    simp only [if_neg (Nat.not_lt.2 hname), hfree]
    simp
  | itself hdir hname hlink hpurpose =>
    rw [walk, hdir]
    simp only [if_neg (Nat.not_lt.2 hname), hlink]
    simp [hpurpose]
  | follow hdir hname hslash hlink hitself _ ih =>
    rw [walk, hdir]
    simp only [if_neg (Nat.not_lt.2 hname), if_neg hslash, hlink, if_neg hitself]
    exact ih
  | @down links here name rest x s hdir hname hslash hx hlink _ ih =>
    rw [walk, hdir]
    simp only [if_neg (Nat.not_lt.2 hname), if_neg hslash, hx]
    cases x with
    | link target => exact absurd rfl (hlink target)
    | file content => exact ih
    | directory => exact ih

theorem walks_of_walk (h : t.walk purpose links here steps = .ok s) :
    Walks t purpose links here steps s := by
  fun_induction walk t purpose links here steps with
  | case1 links here n hn =>
    cases h
    exact .arrive hn
  | case2 => cases h
  | case3 => cases h
  | case4 => cases h
  | case5 => cases h
  | case6 links here rest hdir ih => exact .stay hdir (.inl rfl) (ih h)
  | case7 links here rest hdir ih => exact .stay hdir (.inr rfl) (ih h)
  | case8 links here rest hdir ih => exact .up hdir (ih h)
  | case9 => cases h
  | case10 => cases h
  | case11 links here hdir name hname hfree =>
    cases h
    exact .vacant hdir (Nat.not_lt.1 hname) hfree
  | case12 => cases h
  | case13 links here rest hdir name hname hslash target hlink hitself =>
    cases h
    obtain ⟨hpurpose, rfl⟩ := hitself
    exact .itself hdir (Nat.not_lt.1 hname) hlink hpurpose
  | case14 => cases h
  | case15 here rest hdir name hname hslash target hlink hitself links start ih =>
    exact .follow hdir (Nat.not_lt.1 hname) hslash hlink hitself (ih h)
  | case16 links here rest hdir name hname hslash x hlink hx ih =>
    exact .down hdir (Nat.not_lt.1 hname) hslash hx hlink (ih h)

theorem walk_eq_ok_iff :
    t.walk purpose links here steps = .ok s ↔ Walks t purpose links here steps s :=
  ⟨walks_of_walk, walk_of_walks⟩

/-- A walk to what a path leads to fails because that cannot be there, or at a name that is too
long. -/
theorem fault_of_walk_target {f : FileFault} (h : t.walk .target links here steps = .error f) :
    f.meansAbsent = true ∨ f = .nameTooLong := by
  fun_induction walk t .target links here steps with
  | case1 | case11 | case13 => cases h
  | case2 | case3 | case4 | case5 | case12 | case14 =>
    cases h
    exact .inl rfl
  | case9 =>
    cases h
    exact .inr rfl
  | case10 _ _ _ _ _ _ hwriting => cases hwriting.1
  | case6 _ _ _ _ ih | case7 _ _ _ _ ih | case8 _ _ _ _ ih => exact ih h
  | case15 _ _ _ _ _ _ _ _ _ _ _ ih => exact ih h
  | case16 _ _ _ _ _ _ _ _ _ _ ih => exact ih h

/-- What a walk finds is there. -/
theorem Walks.get? {n : Node} (h : Walks t purpose links here steps (.found l n)) :
    t.get? l = some n := by
  generalize hs : Spot.found l n = s at h
  induction h with
  | arrive hn =>
    cases hs
    exact hn
  | stay _ _ _ ih => exact ih hs
  | up _ _ ih => exact ih hs
  | vacant => cases hs
  | itself _ _ hlink _ =>
    cases hs
    exact hlink
  | follow _ _ _ _ _ _ ih => exact ih hs
  | down _ _ _ _ _ _ ih => exact ih hs

/-- A walk comes to a free name in a directory, and there is nothing under that name. -/
theorem Walks.vacant_get? {name : String}
    (h : Walks t purpose links here steps (.vacant l name)) :
    t.get? l = some .directory ∧ t.get? (l ++ [name]) = none := by
  generalize hs : Spot.vacant l name = s at h
  induction h with
  | arrive => cases hs
  | stay _ _ _ ih => exact ih hs
  | up _ _ ih => exact ih hs
  | vacant hdir _ hfree =>
    cases hs
    exact ⟨hdir, hfree⟩
  | itself => cases hs
  | follow _ _ _ _ _ _ ih => exact ih hs
  | down _ _ _ _ _ _ ih => exact ih hs

/-- A walk that has come to a file ends there. -/
theorem Walks.of_get?_file {content : Bytes} (h : Walks t purpose links here steps s)
    (hfile : t.get? here = some (.file content)) :
    steps = [] ∧ s = .found here (.file content) := by
  cases h with
  | arrive hn =>
    rw [hfile] at hn
    cases hn
    exact ⟨rfl, rfl⟩
  | stay hdir | up hdir | vacant hdir | itself hdir | follow hdir | down hdir =>
    rw [hfile] at hdir
    cases hdir

/-! Walks in trees that differ. -/

/-- What is found in a tree is found where there is more. -/
theorem Walks.mono (hmore : ∀ m x, t.get? m = some x → t'.get? m = some x) {n : Node}
    (h : Walks t purpose links here steps (.found l n)) :
    Walks t' purpose links here steps (.found l n) := by
  generalize hs : Spot.found l n = s at h
  induction h with
  | arrive hn => exact .arrive (hmore _ _ hn)
  | stay hdir hstep _ ih => exact .stay (hmore _ _ hdir) hstep (ih hs)
  | up hdir _ ih => exact .up (hmore _ _ hdir) (ih hs)
  | vacant => cases hs
  | itself hdir hname hlink hpurpose =>
    exact .itself (hmore _ _ hdir) hname (hmore _ _ hlink) hpurpose
  | follow hdir hname hslash hlink hitself _ ih =>
    exact .follow (hmore _ _ hdir) hname hslash (hmore _ _ hlink) hitself (ih hs)
  | down hdir hname hslash hx hlink _ ih =>
    exact .down (hmore _ _ hdir) hname hslash (hmore _ _ hx) hlink (ih hs)

/-- A file written where a walk came to its end is found there by the next walk, whatever else there
was on the way. -/
theorem Walks.of_file {content : Bytes} (hpurpose : purpose ≠ .itself)
    (hother : ∀ m ≠ l, t'.get? m = t.get? m) (hfile : t'.get? l = some (.file content))
    (hnone : ∀ x, t.get? l = some x → ∃ old, x = .file old)
    (h : Walks t .writing links here steps s) (hs : s.location = l) :
    Walks t' purpose links here steps (.found l (.file content)) := by
  -- A directory or a link on the way is not at the location of the file, so it is there as before.
  have hkeep : ∀ m x, t.get? m = some x → (∀ old, x ≠ .file old) → t'.get? m = some x := by
    intro m x hx hold
    have hm : m ≠ l := by
      rintro rfl
      obtain ⟨old, rfl⟩ := hnone x hx
      exact hold old rfl
    rw [hother m hm, hx]
  have hkeepDir : ∀ m, t.get? m = some .directory → t'.get? m = some .directory :=
    fun m hm => hkeep m _ hm fun _ heq => Node.noConfusion heq
  have hnotSlash : ∀ rest : List Step, ¬ (Purpose.writing = .writing ∧ rest = [.slash]) →
      ¬ (purpose = .writing ∧ rest = [.slash]) := fun _ hslash hno => hslash ⟨rfl, hno.2⟩
  have hnotItself : ∀ rest : List Step, ¬ (purpose = .itself ∧ rest = []) :=
    fun _ hno => hpurpose hno.1
  induction h with
  | arrive hn =>
    subst hs
    exact .arrive hfile
  | stay hdir hstep _ ih => exact .stay (hkeepDir _ hdir) hstep (ih hs)
  | up hdir _ ih => exact .up (hkeepDir _ hdir) (ih hs)
  | vacant hdir hname hfree =>
    subst hs
    exact .down (hkeepDir _ hdir) hname (hnotSlash _ fun hno => by cases hno.2) hfile
      (fun _ heq => Node.noConfusion heq) (.arrive hfile)
  | itself _ _ _ hitself => cases hitself
  | follow hdir hname hslash hlink hitself _ ih =>
    exact .follow (hkeepDir _ hdir) hname (hnotSlash _ hslash)
      (hkeep _ _ hlink fun _ heq => Node.noConfusion heq) (hnotItself _) (ih hs)
  | @down links here name rest x s hdir hname hslash hx hlink hrest ih =>
    by_cases hm : here ++ [name] = l
    · refine .down (hkeepDir _ hdir) hname (hnotSlash _ hslash) (hm ▸ hfile)
        (fun _ heq => Node.noConfusion heq) (ih hs)
    · refine .down (hkeepDir _ hdir) hname (hnotSlash _ hslash) ((hother _ hm).trans hx) hlink
        (ih hs)

/-- A file that can be written along a way is found along it, or the free name in its place. -/
theorem Walks.of_writing (h : Walks t .writing links here steps s) :
    Walks t .target links here steps s := by
  have hnotSlash : ∀ rest : List Step, ¬ (Purpose.target = .writing ∧ rest = [.slash]) :=
    fun _ hno => Purpose.noConfusion hno.1
  have hnotItself : ∀ rest : List Step, ¬ (Purpose.target = .itself ∧ rest = []) :=
    fun _ hno => Purpose.noConfusion hno.1
  induction h with
  | arrive hn => exact .arrive hn
  | stay hdir hstep _ ih => exact .stay hdir hstep ih
  | up hdir _ ih => exact .up hdir ih
  | vacant hdir hname hfree => exact .vacant hdir hname hfree
  | itself _ _ _ hpurpose => cases hpurpose
  | follow hdir hname _ hlink _ _ ih =>
    exact .follow hdir hname (hnotSlash _) hlink (hnotItself _) ih
  | down hdir hname _ hx hlink _ ih => exact .down hdir hname (hnotSlash _) hx hlink ih

/-- A walk in a tree to which files have been added comes to the same end as before, or to one of
these files under a name that was free. -/
theorem Walks.of_added (hmore : ∀ m x, t.get? m = some x → t'.get? m = some x)
    (hadded : ∀ m x, t'.get? m = some x → t.get? m = some x ∨ ∃ content, x = .file content)
    (hhere : ∀ x, t'.get? here = some x → t.get? here = some x)
    (h : Walks t' purpose links here steps s) :
    Walks t purpose links here steps s ∨ ∃ parent name content,
      Walks t purpose links here steps (.vacant parent name) ∧
      s = .found (parent ++ [name]) (.file content) := by
  have hdirectory : ∀ m, t'.get? m = some .directory → t.get? m = some .directory := by
    intro m hm
    rcases hadded m _ hm with hold | ⟨_, heq⟩
    · exact hold
    · cases heq
  have hsame : ∀ {m x}, t.get? m = some x → ∀ y, t'.get? m = some y → t.get? m = some y := by
    intro m x hx y hy
    rw [hmore m x hx] at hy
    rw [hx, hy]
  induction h with
  | arrive hn => exact .inl (.arrive (hhere _ hn))
  | stay hdir hstep _ ih =>
    have hdir := hdirectory _ hdir
    rcases ih hhere with hold | ⟨parent, name, content, hold, rfl⟩
    · exact .inl (.stay hdir hstep hold)
    · exact .inr ⟨parent, name, content, .stay hdir hstep hold, rfl⟩
  | up hdir _ ih =>
    have hdir := hdirectory _ hdir
    rcases ih (hsame (get?_dropLast hdir)) with hold | ⟨parent, name, content, hold, rfl⟩
    · exact .inl (.up hdir hold)
    · exact .inr ⟨parent, name, content, .up hdir hold, rfl⟩
  | vacant hdir hname hfree =>
    refine .inl (.vacant (hdirectory _ hdir) hname (Option.eq_none_iff_forall_ne_some.2 ?_))
    intro x hx
    rw [hmore _ x hx] at hfree
    cases hfree
  | itself hdir hname hlink hpurpose =>
    rcases hadded _ _ hlink with hlink | ⟨_, heq⟩
    · exact .inl (.itself (hdirectory _ hdir) hname hlink hpurpose)
    · cases heq
  | @follow links here name rest target s hdir hname hslash hlink hitself _ ih =>
    have hdir := hdirectory _ hdir
    have hlink : t.get? (here ++ [name]) = some (.link target) := by
      rcases hadded _ _ hlink with hlink | ⟨_, heq⟩
      · exact hlink
      · cases heq
    have hstart :
        t.get? (if target.toList.head? = some '/' then [] else here) = some .directory := by
      split
      · rfl
      · exact hdir
    rcases ih (hsame hstart) with hold | ⟨parent, free, content, hold, rfl⟩
    · exact .inl (.follow hdir hname hslash hlink hitself hold)
    · exact .inr ⟨parent, free, content, .follow hdir hname hslash hlink hitself hold, rfl⟩
  | @down links here name rest x s hdir hname hslash hx hlink hrest ih =>
    have hdir := hdirectory _ hdir
    cases hold : t.get? (here ++ [name]) with
    | some y =>
      have hy : y = x := Option.some.inj ((hmore _ y hold).symm.trans hx)
      subst hy
      rcases ih (hsame hold) with hwalk | ⟨parent, free, content, hwalk, rfl⟩
      · exact .inl (.down hdir hname hslash hold hlink hwalk)
      · exact .inr ⟨parent, free, content, .down hdir hname hslash hold hlink hwalk, rfl⟩
    | none =>
      rcases hadded _ _ hx with hx | ⟨content, rfl⟩
      · rw [hold] at hx
        cases hx
      · obtain ⟨rfl, rfl⟩ := hrest.of_get?_file hx
        exact .inr ⟨here, name, content, .vacant hdir hname hold, rfl⟩

/-! The way to a name in a directory. -/

theorem not_slash_append_down (purpose : Purpose) (rest : List Step) (name : String) :
    ¬ (purpose = .writing ∧ rest ++ [.down name] = [.slash]) := by
  rintro ⟨-, heq⟩
  rcases List.append_eq_singleton_iff.1 heq with ⟨-, h⟩ | ⟨-, h⟩
  · cases h
  · cases h

/-- A walk that sets out where there is nothing does not get anywhere. -/
theorem walk_of_get?_none (h : t.get? here = none) (purpose : Purpose) (links : Nat)
    (steps : List Step) : t.walk purpose links here steps = .error .missing := by
  unfold walk
  cases steps with
  | nil => simp only [h]
  | cons step rest => simp only [h]

/-- A walk to something in what is not there does not get any further. -/
theorem walk_down_of_get?_none {name : String} (hdir : t.get? here = some .directory)
    (hname : Path.byteLength name ≤ nameLimit) (hnone : t.get? (here ++ [name]) = none)
    (rest : List Step) (last : String) :
    t.walk purpose links here (.down name :: rest ++ [.down last]) = .error .missing := by
  rw [List.cons_append, walk, hdir]
  simp only [if_neg (Nat.not_lt.2 hname), if_neg (not_slash_append_down _ _ _), hnone]
  simp

/-- A walk through a directory to a name does, in a tree where there is less, what a walk from that
directory does, unless something that the way leads through is no longer there. -/
theorem Walks.walk_append_of_less (hless : ∀ m x, t'.get? m = some x → t.get? m = some x) {n : Node}
    (h : Walks t .target links here steps (.found l n)) :
    (∃ left, ∀ purpose name, t'.walk purpose links here (steps ++ [.down name])
      = t'.walk purpose left l [.down name]) ∨
    (∃ m x, t.get? m = some x ∧ t'.get? m = none) ∧
      ∀ purpose name, t'.walk purpose links here (steps ++ [.down name]) = .error .missing := by
  have hkept : ∀ {m x}, t.get? m = some x → t'.get? m = some x ∨ t'.get? m = none := by
    intro m x hx
    cases hy : t'.get? m with
    | none => exact .inr rfl
    | some y =>
      rw [hless m y hy] at hx
      exact .inl hx
  generalize hs : Spot.found l n = s at h
  induction h with
  | @arrive links here =>
    cases hs
    exact .inl ⟨links, fun _ _ => rfl⟩
  | @stay links here step rest s hdir hstep _ ih =>
    rcases hkept hdir with hdir' | hnone
    · have hwalk : ∀ purpose name, t'.walk purpose links here (step :: rest ++ [.down name])
          = t'.walk purpose links here (rest ++ [.down name]) := by
        intro purpose name
        rcases hstep with rfl | rfl
        · rw [List.cons_append, walk, hdir']
        · rw [List.cons_append, walk, hdir']
      simp only [hwalk]
      exact ih hs
    · exact .inr ⟨⟨_, _, hdir, hnone⟩, fun _ _ => walk_of_get?_none hnone _ _ _⟩
  | @up links here rest s hdir _ ih =>
    rcases hkept hdir with hdir' | hnone
    · have hwalk : ∀ purpose name, t'.walk purpose links here (.up :: rest ++ [.down name])
          = t'.walk purpose links here.dropLast (rest ++ [.down name]) := by
        intro purpose name
        rw [List.cons_append, walk, hdir']
      simp only [hwalk]
      exact ih hs
    · exact .inr ⟨⟨_, _, hdir, hnone⟩, fun _ _ => walk_of_get?_none hnone _ _ _⟩
  | vacant => cases hs
  | itself _ _ _ hpurpose => cases hpurpose
  | @follow links here name rest target s hdir hname _ hlink _ _ ih =>
    rcases hkept hdir with hdir' | hnone
    · rcases hkept hlink with hlink' | hgone
      · have hwalk : ∀ purpose last,
            t'.walk purpose (links + 1) here (.down name :: rest ++ [.down last])
              = t'.walk purpose links (if target.toList.head? = some '/' then [] else here)
                (Step.ofTarget target ++ rest ++ [.down last]) := by
          intro purpose last
          have hitself : ¬ (purpose = .itself ∧ rest ++ [.down last] = []) := by simp
          rw [List.cons_append, walk, hdir', List.append_assoc]
          simp only [if_neg (Nat.not_lt.2 hname), if_neg (not_slash_append_down _ _ _), hlink',
            if_neg hitself]
        simp only [hwalk]
        exact ih hs
      · exact .inr ⟨⟨_, _, hlink, hgone⟩, fun _ last =>
          walk_down_of_get?_none hdir' hname hgone rest last⟩
    · exact .inr ⟨⟨_, _, hdir, hnone⟩, fun _ _ => walk_of_get?_none hnone _ _ _⟩
  | @down links here name rest x s hdir hname _ hx hlink _ ih =>
    rcases hkept hdir with hdir' | hnone
    · rcases hkept hx with hx' | hgone
      · have hwalk : ∀ purpose last, t'.walk purpose links here (.down name :: rest ++ [.down last])
            = t'.walk purpose links (here ++ [name]) (rest ++ [.down last]) := by
          intro purpose last
          rw [List.cons_append, walk, hdir']
          simp only [if_neg (Nat.not_lt.2 hname), if_neg (not_slash_append_down _ _ _), hx']
        simp only [hwalk]
        exact ih hs
      · exact .inr ⟨⟨_, _, hx, hgone⟩, fun _ last =>
          walk_down_of_get?_none hdir' hname hgone rest last⟩
    · exact .inr ⟨⟨_, _, hdir, hnone⟩, fun _ _ => walk_of_get?_none hnone _ _ _⟩

/-- Whatever a walk is for, it leads through a directory that is found on the way. -/
theorem Walks.exists_walk_append {n : Node} (h : Walks t .target links here steps (.found l n)) :
    ∃ left, ∀ purpose name,
      t.walk purpose links here (steps ++ [.down name]) = t.walk purpose left l [.down name] := by
  refine (h.walk_append_of_less fun _ _ => id).resolve_right ?_
  rintro ⟨⟨m, x, hx, hnone⟩, -⟩
  rw [hx] at hnone
  cases hnone

/-- A walk to a name comes through the directory that the steps before it lead to. -/
theorem Walks.of_append_down {name : String}
    (h : Walks t purpose links here (steps ++ [.down name]) s) :
    ∃ left l, Walks t .target links here steps (.found l .directory) ∧
      Walks t purpose left l [.down name] s := by
  have hnotSlash : ∀ rest : List Step, ¬ (Purpose.target = .writing ∧ rest = [.slash]) :=
    fun _ hno => Purpose.noConfusion hno.1
  have hnotItself : ∀ rest : List Step, ¬ (Purpose.target = .itself ∧ rest = []) :=
    fun _ hno => Purpose.noConfusion hno.1
  generalize hall : steps ++ [.down name] = all at h
  induction h generalizing steps with
  | arrive => simp at hall
  | @stay links here step rest s hdir hstep hrest ih =>
    cases steps with
    | nil =>
      obtain ⟨rfl, rfl⟩ := List.cons.inj hall
      exact ⟨links, here, .arrive hdir, .stay hdir hstep hrest⟩
    | cons _ steps =>
      obtain ⟨rfl, hrest⟩ := List.cons.inj hall
      obtain ⟨left, l, hfirst, hlast⟩ := ih hrest
      exact ⟨left, l, .stay hdir hstep hfirst, hlast⟩
  | @up links here rest s hdir hrest ih =>
    cases steps with
    | nil => cases hall
    | cons _ steps =>
      obtain ⟨rfl, hrest⟩ := List.cons.inj hall
      obtain ⟨left, l, hfirst, hlast⟩ := ih hrest
      exact ⟨left, l, .up hdir hfirst, hlast⟩
  | @vacant links here name hdir hname hfree =>
    obtain ⟨rfl, heq⟩ := List.append_eq_singleton_iff.1 hall |>.resolve_right (by simp)
    cases heq
    exact ⟨links, here, .arrive hdir, .vacant hdir hname hfree⟩
  | @itself links here name target hdir hname hlink hpurpose =>
    obtain ⟨rfl, heq⟩ := List.append_eq_singleton_iff.1 hall |>.resolve_right (by simp)
    cases heq
    exact ⟨links, here, .arrive hdir, .itself hdir hname hlink hpurpose⟩
  | @follow links here name rest target s hdir hname hslash hlink hitself hrest ih =>
    cases steps with
    | nil =>
      cases hall
      exact ⟨links + 1, here, .arrive hdir, .follow hdir hname hslash hlink hitself hrest⟩
    | cons _ steps =>
      obtain ⟨rfl, rfl⟩ := List.cons.inj hall
      obtain ⟨left, l, hfirst, hlast⟩ := ih (List.append_assoc _ _ _)
      exact ⟨left, l, .follow hdir hname (hnotSlash _) hlink (hnotItself _) hfirst, hlast⟩
  | @down links here name rest x s hdir hname hslash hx hlink hrest ih =>
    cases steps with
    | nil =>
      cases hall
      exact ⟨links, here, .arrive hdir, .down hdir hname hslash hx hlink hrest⟩
    | cons _ steps =>
      obtain ⟨rfl, rfl⟩ := List.cons.inj hall
      obtain ⟨left, l, hfirst, hlast⟩ := ih rfl
      exact ⟨left, l, .down hdir hname (hnotSlash _) hx hlink hfirst, hlast⟩

/-- A walk along one name finds nothing unless there is something under that name. -/
theorem Walks.exists_get?_of_down {name : String} {n : Node}
    (h : Walks t purpose links here [.down name] (.found l n)) :
    ∃ x, t.get? (here ++ [name]) = some x := by
  cases h with
  | stay _ hstep =>
    rcases hstep with heq | heq
    · cases heq
    · cases heq
  | itself _ _ hlink => exact ⟨_, hlink⟩
  | follow _ _ _ hlink => exact ⟨_, hlink⟩
  | down _ _ _ hx => exact ⟨_, hx⟩

variable {name : String}

/-- A walk through a directory to a name that is free in it. -/
theorem walk_append_vacant (h : Walks t .target links here steps (.found l .directory))
    (hname : Path.byteLength name ≤ nameLimit) (hfree : t.get? (l ++ [name]) = none)
    (purpose : Purpose) :
    t.walk purpose links here (steps ++ [.down name]) = .ok (.vacant l name) := by
  obtain ⟨left, hleft⟩ := h.exists_walk_append
  rw [hleft]
  exact walk_of_walks (.vacant h.get? hname hfree)

/-- A walk through a directory to a file in it. -/
theorem walk_append_file (h : Walks t .target links here steps (.found l .directory))
    (hname : Path.byteLength name ≤ nameLimit) {content : Bytes}
    (hfile : t.get? (l ++ [name]) = some (.file content)) (purpose : Purpose) :
    t.walk purpose links here (steps ++ [.down name])
      = .ok (.found (l ++ [name]) (.file content)) := by
  obtain ⟨left, hleft⟩ := h.exists_walk_append
  rw [hleft]
  refine walk_of_walks (.down h.get? hname ?_ hfile (fun _ heq => Node.noConfusion heq)
    (.arrive hfile))
  rintro ⟨-, heq⟩
  cases heq

end FileTree

end LicenseDepot
