import LicenseDepot.Proofs.LicenseDocument.RoundTrip

/-!
# Documents with layout

The writer of documents makes no layout, and a document that has been laid out by hand is still one
of the same terms, as long as blanks are put only where no data are: around the children of the root
element, of `licensee` and of `features`, and at the ends of the texts that are trimmed. Values,
features and names of entries are not trimmed, and they stay as they have been written. Main
statement: `read_of_isLaidOut`.
-/

namespace LicenseDepot.LicenseDocument

open Markup Text

/-- A child of the root element as it is written, but for layout where it holds no data. -/
inductive Relaid : Element → List Char → Prop
  /-- A text of its own may have runs of blanks at its ends. -/
  | padded {name : String} {text padded : List Char} (hname : name ∈ textFields) (hne : text ≠ [])
      (h : Padded text padded) : Relaid (leaf name text) (leaf name padded).render
  /-- Entries and features may have runs of blanks before, between and after them. -/
  | spaced {name : String} {children : List Element} {s : List Char}
      (hname : name ∈ ["licensee", "features"]) (hne : children ≠ [])
      (h : Spaced (children.map Element.render) s) : Relaid (branch name children) (within name s)
  /-- Where there are none of them, there is a single tag and no place for layout. -/
  | single {name : String} (hname : name ∈ ["licensee", "features"]) :
      Relaid (branch name []) (branch name []).render

/-- Whether a text is the document of some terms, but for layout where it holds no data: the
children of the root element have runs of blanks around them, and each of them is laid out. -/
def IsLaidOut (t : Terms) (s : List Char) : Prop :=
  ∃ root children body, toElement t = .ok root ∧ List.Forall₂ Relaid root.children children ∧
    Spaced children body ∧ s = declaration ++ within "license" body

/-! ### Layout is put into a document -/

theorem render_leaf {name : String} {text : List Char} (hne : text ≠ []) :
    (leaf name text).render = within name (escape text) := by
  rw [Element.render_of_not_empty fun hempty => hne hempty.1]
  simp [leaf, within, Fragment.chars, ExpandedName.plain]

theorem render_branch {name : String} {children : List Element} (hne : children ≠ []) :
    (branch name children).render = within name (children.flatMap Element.render) := by
  rw [Element.render_of_not_empty fun hempty => hne hempty.2]
  simp [branch, within, Fragment.chars, ExpandedName.plain, escape]

theorem Padded.sublist_escape {text padded : List Char} (h : Padded text padded) :
    (escape text).Sublist (escape padded) := by
  obtain ⟨before, after, -, -, rfl⟩ := h
  rw [escape, escape, List.flatMap_append, List.flatMap_append]
  exact (List.sublist_append_left _ _).trans (List.sublist_append_right _ _)

theorem Relaid.sublist {c : Element} {s : List Char} (h : Relaid c s) : c.render.Sublist s := by
  cases h with
  | @padded name text padded hname hne hpadded =>
    have hpadded_ne : padded ≠ [] := by
      obtain ⟨before, after, -, -, rfl⟩ := hpadded
      simp [hne]
    rw [render_leaf hne, render_leaf hpadded_ne]
    exact within_sublist name hpadded.sublist_escape
  | @spaced name children s hname hne hspaced =>
    rw [render_branch hne, List.flatMap_def]
    exact within_sublist name hspaced.sublist
  | single hname => exact List.Sublist.refl _

theorem render_sublist {cs : List Element} {ts : List (List Char)} (h : List.Forall₂ Relaid cs ts) :
    (cs.flatMap Element.render).Sublist ts.flatten := by
  induction h with
  | nil => exact List.nil_sublist _
  | cons hrelaid _ ih =>
    rw [List.flatMap_cons, List.flatten_cons]
    exact hrelaid.sublist.append ih

/-- The document that is written is what is left of one that is laid out when its layout is taken
away. -/
theorem sublist_of_isLaidOut {t : Terms} {s laidOut : List Char} (h : write t = .ok s)
    (hlaid : IsLaidOut t laidOut) : s.Sublist laidOut := by
  obtain ⟨root, children, body, hroot, hchildren, hbody, rfl⟩ := hlaid
  obtain ⟨-, rfl⟩ := toElement_eq_ok_iff.1 hroot
  obtain ⟨-, rfl⟩ := write_eq_ok_iff.1 h
  have hne : (termsElement t).children ≠ [] := List.cons_ne_nil _ _
  refine .append (.refl _) ?_
  show (branch "license" (termsElement t).children).render.Sublist (within "license" body)
  rw [render_branch hne]
  exact within_sublist "license" ((render_sublist hchildren).trans hbody.sublist)

/-! ### Reading documents with layout -/

theorem forall₂_readsAs_render {cs : List Element} (h : ∀ c ∈ cs, c.IsWritable) :
    List.Forall₂ ReadsAs (cs.map Element.render) cs := by
  rw [List.forall₂_map_left_iff, List.forall₂_same]
  exact fun c hc => readsAs_render (h c hc)

/-- What is read of a child that is laid out resembles what has been written. -/
theorem Relaid.exists_resembles {c : Element} {s : List Char} (h : Relaid c s)
    (hwritable : c.IsWritable) : ∃ d, ReadsAs s d ∧ Resembles c d := by
  cases h with
  | @padded name text padded hname hne hpadded =>
    have hkept : ∀ c ∈ padded, IsKept c := by
      obtain ⟨before, after, hbefore, hafter, rfl⟩ := hpadded
      rw [List.forall_mem_append, List.forall_mem_append]
      exact ⟨hbefore.isKept, hwritable.tag.text, hafter.isKept⟩
    exact ⟨leaf name padded, readsAs_render (isWritable_leaf hwritable.tag.name hkept), rfl, rfl,
      fun _ => hpadded⟩
  | @spaced name children s hname hne hspaced =>
    obtain ⟨run, hread⟩ := hspaced.readsAs_within hwritable.tag.name
      (forall₂_readsAs_render hwritable.children)
    exact ⟨_, hread, rfl, rfl, fun hnil => absurd hnil hne⟩
  | single hname => exact ⟨_, readsAs_render hwritable, resembles_refl _⟩

theorem exists_forall₂_resembles {cs : List Element} {ts : List (List Char)}
    (h : List.Forall₂ Relaid cs ts) (hwritable : ∀ c ∈ cs, c.IsWritable) :
    ∃ ds, List.Forall₂ ReadsAs ts ds ∧ List.Forall₂ Resembles cs ds := by
  induction h with
  | nil => exact ⟨[], .nil, .nil⟩
  | cons hrelaid _ ih =>
    obtain ⟨d, hread, hresembles⟩ := hrelaid.exists_resembles (hwritable _ List.mem_cons_self)
    obtain ⟨ds, hreads, hresemble⟩ := ih fun c hc => hwritable c (List.mem_cons_of_mem _ hc)
    exact ⟨d :: ds, .cons hread hreads, .cons hresembles hresemble⟩

/-- A document that has been laid out is read as the terms that were written, with the expiry date
that is read for theirs. -/
theorem read_of_isLaidOut {t : Terms} {s : List Char} (h : IsLaidOut t s) :
    ∃ root, Element.read s = .ok root ∧ ofElement root = .ok (termsAsRead t) := by
  obtain ⟨root, children, body, hroot, hchildren, hbody, rfl⟩ := h
  obtain ⟨hterms, rfl⟩ := toElement_eq_ok_iff.1 hroot
  obtain ⟨ds, hreads, hresemble⟩ :=
    exists_forall₂_resembles hchildren (isWritable_termsElement hterms).children
  have hname : isName "license".toList = true := by decide
  obtain ⟨run, fs, hfs, hrow⟩ := hbody.readsAs_within hname hreads
  have hbegins : BeginsElement (fs.flatMap Fragment.chars) := by
    rw [hfs]
    exact .inr (.inr ⟨'l', _, rfl, by decide, by decide⟩)
  rw [← hfs]
  exact ⟨_, read_of_isElementRow hrow hbegins, ofElement_of_resembles hterms rfl hresemble⟩

end LicenseDepot.LicenseDocument
