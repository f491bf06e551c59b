import LicenseDepot.Journal.Context
import Mathlib.Data.List.DropRight

/-!
# What the context of an event says

The context is gathered in one pass over the values of a call, and each of its fields depends on a
part of them: the mode on the last reference, the identifier on the last value that has one, the
kind on the last licence. Each of these is one instance of `field_ofSubjects`.

The target is less simple. A path is taken only as long as the store is called `unknown`, and that
is also what a store or a path may really be called, so the word does not tell whether a name has
been found. `target_ofSubjects` says what comes out: of the last reference and the loose paths after
it, the first that is called otherwise. That is the name of the store (`targetOf`) unless one with
that very name is followed by a path with another one (`IsDisplaced`).
-/

namespace LicenseDepot

namespace Subject

/-- The store that a value refers to. -/
def reference? : Subject → Option Reference
  | .reference r => some r
  | _ => none

/-- The path that a value is. -/
def path? : Subject → Option Path
  | .path p => some p
  | _ => none

/-- The licence that a value is. -/
def license? : Subject → Option License
  | .license l => some l
  | _ => none

/-- The identifier that a value is, or that a licence has. -/
def id? : Subject → Option LicenseId
  | .license l => some l.id
  | .id i => some i
  | _ => none

end Subject

/-- What the last value that has something has. -/
def lastOf? {α : Type} (f : Subject → Option α) (subjects : List Subject) : Option α :=
  (subjects.filterMap f).getLast?

section Last

variable {α : Type} (f : Subject → Option α) (subjects : List Subject) (s : Subject)

theorem lastOf?_concat : lastOf? f (subjects ++ [s]) = (f s).or (lastOf? f subjects) := by
  rw [lastOf?, List.filterMap_append, lastOf?]
  cases hs : f s with
  | none => rw [List.filterMap_cons_none hs, List.filterMap_nil, List.append_nil, Option.none_or]
  | some a => rw [List.filterMap_cons_some hs, List.filterMap_nil, List.getLast?_concat,
      Option.some_or]

end Last

namespace Context

variable (subjects : List Subject)

theorem ofSubjects_concat (s : Subject) :
    ofSubjects (subjects ++ [s]) = (ofSubjects subjects).add s := by
  rw [ofSubjects, List.foldl_append]
  rfl

/-! ## Fields that the last value decides -/

/-- A field that is missing at first, and that each value overwrites or leaves as it is, is that of
the last value that overwrites it. -/
theorem field_ofSubjects {α β : Type} (field : Context → Option β) (f : Subject → Option α)
    (g : α → β) (hinitial : field initial = none)
    (hadd : ∀ c s, field (c.add s) = ((f s).map g).or (field c)) :
    field (ofSubjects subjects) = (lastOf? f subjects).map g := by
  induction subjects using List.reverseRecOn with
  | nil => exact hinitial
  | append_singleton subjects s ih =>
    rw [ofSubjects_concat, hadd, ih, lastOf?_concat, Option.map_or]

/-- A path can change the target only. -/
theorem add_path (c : Context) (p : Path) :
    c.add (.path p) = { c with target := if c.target = unknown then p.toText else c.target } := by
  rw [add]
  split <;> rfl

theorem mode_ofSubjects :
    (ofSubjects subjects).mode = (lastOf? Subject.reference? subjects).map Reference.mode := by
  refine field_ofSubjects subjects Context.mode _ _ rfl fun c s => ?_
  cases s with
  | path p =>
    rw [add_path]
    rfl
  | _ => rfl

theorem licenseId_ofSubjects :
    (ofSubjects subjects).licenseId = (lastOf? Subject.id? subjects).map LicenseId.toText := by
  refine field_ofSubjects subjects Context.licenseId _ _ rfl fun c s => ?_
  cases s with
  | path p =>
    rw [add_path]
    rfl
  | _ => rfl

theorem kind_ofSubjects :
    (ofSubjects subjects).kind = (lastOf? Subject.license? subjects).map License.kind := by
  refine field_ofSubjects subjects Context.kind _ _ rfl fun c s => ?_
  cases s with
  | path p =>
    rw [add_path]
    rfl
  | _ => rfl

/-! ## The target -/

/-- The paths after the last reference, or all paths if there is no reference. -/
def loosePaths : List Path :=
  (subjects.rtakeWhile fun s => s.reference?.isNone).filterMap Subject.path?

/-- What the store of a call is called: the target of the last reference, or else the first path, or
else that it is not known. -/
def targetOf : String :=
  match lastOf? Subject.reference? subjects with
  | some r => r.target
  | none => ((subjects.filterMap Subject.path?).head?.map Path.toText).getD unknown

/-- Whether a store is called by the word for one that is not known, and a path after it is not. -/
def IsDisplaced : Prop :=
  targetOf subjects = unknown ∧ ∃ p ∈ loosePaths subjects, p.toText ≠ unknown

/-- The names that the target is chosen from: that of the last reference, and those of the paths
after it. -/
def names : List String :=
  ((lastOf? Subject.reference? subjects).map Reference.target).toList
    ++ (loosePaths subjects).map Path.toText

theorem loosePaths_concat_reference (r : Reference) :
    loosePaths (subjects ++ [.reference r]) = [] := by
  have hsome : ¬ (Subject.reference r).reference?.isNone = true := Bool.false_ne_true
  rw [loosePaths, List.rtakeWhile_concat_neg (fun s : Subject => s.reference?.isNone) _ _ hsome]
  rfl

theorem loosePaths_concat {s : Subject} (hs : s.reference? = none) :
    loosePaths (subjects ++ [s]) = loosePaths subjects ++ s.path?.toList := by
  have hnone : s.reference?.isNone = true := Option.isNone_iff_eq_none.2 hs
  rw [loosePaths, List.rtakeWhile_concat_pos (fun s : Subject => s.reference?.isNone) _ _ hnone,
    List.filterMap_append, loosePaths]
  cases hp : s.path? with
  | none => rw [List.filterMap_cons_none hp, List.filterMap_nil, Option.toList_none]
  | some p => rw [List.filterMap_cons_some hp, List.filterMap_nil, Option.toList_some]

theorem names_concat_reference (r : Reference) :
    names (subjects ++ [.reference r]) = [r.target] := by
  rw [names, lastOf?_concat, loosePaths_concat_reference]
  rfl

theorem names_concat {s : Subject} (hs : s.reference? = none) :
    names (subjects ++ [s]) = names subjects ++ s.path?.toList.map Path.toText := by
  rw [names, lastOf?_concat, hs, Option.none_or, loosePaths_concat subjects hs, List.map_append,
    ← List.append_assoc, names]

/-- The target is the first name that is not the word for a store that is not known. -/
theorem target_ofSubjects :
    (ofSubjects subjects).target = ((names subjects).find? (· ≠ unknown)).getD unknown := by
  have hkept : ∀ (subjects : List Subject) (s : Subject), s.reference? = none → s.path? = none →
      names (subjects ++ [s]) = names subjects := by
    intro subjects s hs hp
    rw [names_concat subjects hs, hp]
    exact List.append_nil _
  induction subjects using List.reverseRecOn with
  | nil => rfl
  | append_singleton subjects s ih =>
    rw [ofSubjects_concat]
    cases s with
    | reference r =>
      rw [names_concat_reference, List.find?_singleton]
      show r.target = _
      by_cases hr : r.target = unknown
      · simp [hr]
      · simp [hr]
    | path p =>
      -- A path counts only if no name before it did.
      rw [add_path, names_concat subjects rfl, List.find?_append, ih]
      show (if _ = unknown then p.toText else _) = _
      cases hfind : (names subjects).find? (· ≠ unknown) with
      | none =>
        rw [Option.getD_none, if_pos rfl, Option.none_or]
        show p.toText = (List.find? _ [p.toText]).getD unknown
        by_cases hp : p.toText = unknown
        · simp [hp]
        · simp [hp]
      | some name =>
        have hname : name ≠ unknown := by simpa using List.find?_some hfind
        rw [Option.getD_some, if_neg hname, Option.some_or, Option.getD_some]
    | license l => rw [hkept subjects _ rfl rfl, ← ih]; rfl
    | id i => rw [hkept subjects _ rfl rfl, ← ih]; rfl
    | other j => rw [hkept subjects _ rfl rfl, ← ih]; rfl

/-- Without a reference every path is a loose one. -/
theorem loosePaths_of_no_reference (h : lastOf? Subject.reference? subjects = none) :
    loosePaths subjects = subjects.filterMap Subject.path? := by
  have hnone : ∀ s ∈ subjects, (s.reference?.isNone) = true := by
    rw [lastOf?, List.getLast?_eq_none_iff, List.filterMap_eq_nil_iff] at h
    intro s hs
    exact Option.isNone_iff_eq_none.2 (h s hs)
  rw [loosePaths, List.rtakeWhile_eq_self_iff.2 hnone]

/-- The name of the store is the first of the names, if there is one. -/
theorem targetOf_eq : targetOf subjects = (names subjects).head?.getD unknown := by
  rw [targetOf, names]
  cases h : lastOf? Subject.reference? subjects with
  | some r => rfl
  | none =>
    rw [loosePaths_of_no_reference subjects h, Option.map_none, Option.toList_none,
      List.nil_append, List.head?_map]

/-- If the store is called by the word for one that is not known, only a loose path can give another
name. -/
theorem find?_names (h : targetOf subjects = unknown) :
    (names subjects).find? (· ≠ unknown)
      = ((loosePaths subjects).map Path.toText).find? (· ≠ unknown) := by
  rw [names, List.find?_append]
  cases hr : lastOf? Subject.reference? subjects with
  | none => rfl
  | some r =>
    rw [targetOf, hr] at h
    show (List.find? _ [r.target]).or _ = _
    rw [List.find?_singleton, if_neg (by simpa using h), Option.none_or]

/-- A name that is displaced gives way to the first loose path that is called otherwise. -/
theorem find?_of_isDisplaced (h : IsDisplaced subjects) :
    ((loosePaths subjects).map Path.toText).find? (· ≠ unknown)
      = some (ofSubjects subjects).target := by
  obtain ⟨hname, p, hp, hne⟩ := h
  rw [target_ofSubjects, find?_names subjects hname]
  cases hfind : ((loosePaths subjects).map Path.toText).find? (· ≠ unknown) with
  | none => simpa [hne] using List.find?_eq_none.1 hfind _ (List.mem_map_of_mem hp)
  | some name => rfl

/-- The target is the name of the store unless that name is displaced. -/
theorem target_eq_targetOf_iff :
    (ofSubjects subjects).target = targetOf subjects ↔ ¬ IsDisplaced subjects := by
  constructor
  · intro heq hdisplaced
    have hfind := List.find?_some (find?_of_isDisplaced subjects hdisplaced)
    rw [heq, hdisplaced.1] at hfind
    simp at hfind
  · intro hkept
    rw [target_ofSubjects]
    by_cases hname : targetOf subjects = unknown
    · have hloose : ((loosePaths subjects).map Path.toText).find? (· ≠ unknown) = none := by
        rw [List.find?_eq_none]
        intro name hmem hne
        obtain ⟨p, hp, rfl⟩ := List.mem_map.1 hmem
        exact hkept ⟨hname, p, hp, by simpa using hne⟩
      rw [find?_names subjects hname, hloose, hname, Option.getD_none]
    · -- The first name is the one that is looked for.
      rw [targetOf_eq] at hname ⊢
      cases hnames : names subjects with
      | nil => rfl
      | cons name rest =>
        rw [hnames] at hname
        rw [List.find?_cons_of_pos (by simpa using hname), List.head?_cons]

/-- The context of a call says what the last values of each sort say, and calls the store by its
name unless this is displaced: then it takes the first loose path that is called otherwise. Values
of other sorts change nothing. -/
theorem ofSubjects_describes (args : List Subject) (named : List (String × Subject)) :
    let subjects := args ++ named.map Prod.snd
    (∃ target,
      (ofSubjects subjects).members =
        [("target", .text target),
          ("mode", .ofText? ((lastOf? Subject.reference? subjects).map Reference.mode)),
          ("license_id", .ofText? ((lastOf? Subject.id? subjects).map LicenseId.toText))]
        ++ ((lastOf? Subject.license? subjects).map fun l =>
            ("kind", Json.text l.kind.toText)).toList ∧
      (¬ IsDisplaced subjects → target = targetOf subjects) ∧
      (IsDisplaced subjects → target ≠ targetOf subjects ∧
        ((loosePaths subjects).map Path.toText).find? (· ≠ unknown) = some target)) ∧
    ∀ before after j, subjects = before ++ .other j :: after →
      ofSubjects subjects = ofSubjects (before ++ after) := by
  intro subjects
  refine ⟨⟨(ofSubjects subjects).target, ?_, (target_eq_targetOf_iff subjects).2, fun h => ?_⟩, ?_⟩
  · rw [members, mode_ofSubjects, licenseId_ofSubjects, kind_ofSubjects, Option.map_map]
    rfl
  · exact ⟨fun heq => (target_eq_targetOf_iff subjects).1 heq h, find?_of_isDisplaced subjects h⟩
  · intro before after j h
    rw [h, ofSubjects, ofSubjects, List.foldl_append, List.foldl_append]
    rfl

/-- A store that is really called `unknown` loses its name to a path after it. -/
theorem ofSubjects_unknownStore :
    (ofSubjects [.reference (.file ⟨.here, ["unknown"]⟩ true), .path ⟨.here, ["x"]⟩]).target
      = "x" ∧
    targetOf [.reference (.file ⟨.here, ["unknown"]⟩ true), .path ⟨.here, ["x"]⟩] = "unknown" := by
  decide

end Context

end LicenseDepot
