import LicenseDepot.Proofs.Markup.Fragment
import LicenseDepot.Markup.Document

/-!
# Elements as rows of fragments

A written element is the row of its fragments, and the fragments of an element are those of its tags
and its text with those of its children in between. `Element.IsWritable` says which elements can be
read back: names are plain names that bind no namespace, and text holds no carriage return, which a
reader would turn into a line feed. Main statements: `render_eq_flatMap` and `isRow_fragments`.
-/

namespace LicenseDepot.Markup

open Text

/-- What the attributes of a tag have to keep to for them to be read back. -/
structure AttributesWritable (attributes : List (ExpandedName × List Char)) : Prop where
  space : ∀ a ∈ attributes, a.1.space = none
  name : ∀ a ∈ attributes, isName a.1.base = true
  binder : ∀ a ∈ attributes, a.1.base ≠ Scope.binder
  distinct : (attributes.map Prod.fst).Nodup
  value : ∀ a ∈ attributes, ∀ c ∈ a.2, isXmlChar c = true

/-- Whether a document can hold a character and a reader leaves it as it is. -/
def IsKept (c : Char) : Prop :=
  isXmlChar c = true ∧ c ≠ '\r'

instance : DecidablePred IsKept := fun _ => inferInstanceAs (Decidable (_ ∧ _))

namespace Element

/-- What holds of an element if it holds of all its children holds of all elements. -/
theorem induct {P : Element → Prop} (step : ∀ e : Element, (∀ c ∈ e.children, P c) → P e)
    (e : Element) : P e := by
  apply step e
  intro c hc
  have : sizeOf c < sizeOf e := by
    have hlt := List.sizeOf_lt_of_mem hc
    cases e
    simp only [Element.mk.sizeOf_spec]
    simp only at hlt
    omega
  exact induct step c
termination_by sizeOf e

/-- The fragments of a written element. -/
def fragments (e : Element) : List Fragment :=
  if e.text.isEmpty && e.children.isEmpty then [.single e.name.base e.attributes]
  else .opening e.name.base e.attributes :: ((if e.text.isEmpty then [] else [.text e.text])
    ++ ((e.children.attach.map fun c => c.1.fragments).flatten ++ [.closing e.name.base]))
termination_by sizeOf e
decreasing_by
  have := List.sizeOf_lt_of_mem c.2
  cases e
  simp_all
  omega

/-- The fragments of the text of an element. -/
def textFragments (e : Element) : List Fragment :=
  if e.text.isEmpty then [] else [.text e.text]

theorem isEmpty_and_isEmpty {e : Element} (h : ¬ (e.text = [] ∧ e.children = [])) :
    (e.text.isEmpty && e.children.isEmpty) = false := by
  rw [Bool.eq_false_iff]
  intro hboth
  rw [Bool.and_eq_true, List.isEmpty_iff, List.isEmpty_iff] at hboth
  exact h hboth

theorem fragments_of_empty {e : Element} (htext : e.text = []) (hchildren : e.children = []) :
    e.fragments = [.single e.name.base e.attributes] := by
  rw [fragments, htext, hchildren]
  rfl

theorem fragments_of_not_empty {e : Element} (h : ¬ (e.text = [] ∧ e.children = [])) :
    e.fragments = .opening e.name.base e.attributes :: (e.textFragments
      ++ (e.children.flatMap fragments ++ [.closing e.name.base])) := by
  rw [fragments, isEmpty_and_isEmpty h, List.attach_map_val, ← List.flatMap_def]
  rfl

theorem render_of_empty {e : Element} (htext : e.text = []) (hchildren : e.children = []) :
    e.render = (Fragment.single e.name.base e.attributes).chars := by
  rw [render, htext, hchildren]
  simp [Fragment.chars]

theorem render_of_not_empty {e : Element} (h : ¬ (e.text = [] ∧ e.children = [])) :
    e.render = (Fragment.opening e.name.base e.attributes).chars ++ (escape e.text
      ++ (e.children.flatMap render ++ (Fragment.closing e.name.base).chars)) := by
  rw [render, isEmpty_and_isEmpty h, List.attach_map_val, ← List.flatMap_def]
  simp [Fragment.chars]

theorem flatMap_textFragments (e : Element) :
    e.textFragments.flatMap Fragment.chars = escape e.text := by
  unfold textFragments
  split
  · rename_i htext
    rw [List.isEmpty_iff.1 htext]
    rfl
  · simp [Fragment.chars]

/-- An element is written as its fragments, one after the other. -/
theorem render_eq_flatMap (e : Element) : e.render = e.fragments.flatMap Fragment.chars := by
  induction e using induct with
  | step e ih =>
    by_cases h : e.text = [] ∧ e.children = []
    · rw [render_of_empty h.1 h.2, fragments_of_empty h.1 h.2]
      simp
    · have hchildren : e.children.flatMap render
          = (e.children.flatMap fragments).flatMap Fragment.chars := by
        rw [List.flatMap_assoc]
        exact List.flatMap_congr ih
      rw [render_of_not_empty h, fragments_of_not_empty h, hchildren, ← flatMap_textFragments]
      simp

/-- What the tags and the text of an element have to keep to for it to be read back. -/
structure IsWritableTag (e : Element) : Prop where
  space : e.name.space = none
  name : isName e.name.base = true
  attributes : AttributesWritable e.attributes
  text : ∀ c ∈ e.text, IsKept c

/-- Whether an element can be read back from its written form. -/
inductive IsWritable : Element → Prop
  | intro {e : Element} (tag : e.IsWritableTag) (children : ∀ c ∈ e.children, c.IsWritable) :
    e.IsWritable

theorem IsWritable.tag {e : Element} (h : e.IsWritable) : e.IsWritableTag := by
  cases h with
  | intro tag _ => exact tag

theorem IsWritable.children {e : Element} (h : e.IsWritable) :
    ∀ c ∈ e.children, c.IsWritable := by
  cases h with
  | intro _ children => exact children

end Element

/-! The fragments of an element are a row. -/

theorem isRow_nil : IsRow [] :=
  ⟨by simp, List.isChain_nil⟩

/-- Whether the first of some fragments, if there is one, is a tag. -/
def StartsWithTag (fs : List Fragment) : Prop :=
  ∀ f ∈ fs.head?, f.isText = false

theorem IsRow.cons {f : Fragment} {fs : List Fragment} (hf : f.IsValid) (h : IsRow fs)
    (hmeet : f.isText = true → StartsWithTag fs) : IsRow (f :: fs) := by
  refine ⟨fun g hg => ?_, List.isChain_cons.2 ⟨fun g hg htext => hmeet htext g hg, h.separated⟩⟩
  rcases List.mem_cons.1 hg with rfl | hg
  · exact hf
  · exact h.valid g hg

theorem IsRow.append {fs gs : List Fragment} (hfs : IsRow fs) (hgs : IsRow gs)
    (hmeet : StartsWithTag gs) : IsRow (fs ++ gs) := by
  refine ⟨fun f hf => ?_, List.isChain_append.2
    ⟨hfs.separated, hgs.separated, fun _ _ g hg _ => hmeet g hg⟩⟩
  rcases List.mem_append.1 hf with hf | hf
  · exact hfs.valid f hf
  · exact hgs.valid f hf

theorem StartsWithTag.append {fs gs : List Fragment} (hfs : StartsWithTag fs)
    (hgs : StartsWithTag gs) : StartsWithTag (fs ++ gs) := by
  cases fs with
  | nil => exact hgs
  | cons f fs => exact hfs

namespace Element

theorem startsWithTag_fragments (e : Element) : StartsWithTag e.fragments := by
  by_cases h : e.text = [] ∧ e.children = []
  · rw [fragments_of_empty h.1 h.2]
    intro f hf
    cases hf
    rfl
  · rw [fragments_of_not_empty h]
    intro f hf
    cases hf
    rfl

theorem isRow_textFragments (e : Element) : IsRow e.textFragments := by
  unfold textFragments
  split
  · exact isRow_nil
  · rename_i htext
    exact isRow_nil.cons (fun h => htext (List.isEmpty_iff.2 h)) fun _ => by simp [StartsWithTag]

/-- The fragments of some elements and of what follows them are a row that begins with a tag. -/
theorem isRow_flatMap_fragments {cs : List Element} (h : ∀ c ∈ cs, IsRow c.fragments)
    {rest : List Fragment} (hrest : IsRow rest) (htag : StartsWithTag rest) :
    IsRow (cs.flatMap fragments ++ rest) ∧ StartsWithTag (cs.flatMap fragments ++ rest) := by
  induction cs with
  | nil => exact ⟨hrest, htag⟩
  | cons c cs ih =>
    obtain ⟨hrow, hstart⟩ := ih fun d hd => h d (List.mem_cons_of_mem c hd)
    rw [List.flatMap_cons, List.append_assoc]
    exact ⟨(h c List.mem_cons_self).append hrow hstart, (startsWithTag_fragments c).append hstart⟩

/-- The fragments of a writable element can be told apart. -/
theorem isRow_fragments {e : Element} (h : e.IsWritable) : IsRow e.fragments := by
  induction h with
  | @intro e tag _ ih =>
    by_cases hempty : e.text = [] ∧ e.children = []
    · rw [fragments_of_empty hempty.1 hempty.2]
      exact isRow_nil.cons ⟨tag.name, tag.attributes.name⟩ fun hno =>
        absurd hno (by simp [Fragment.isText])
    · rw [fragments_of_not_empty hempty]
      have hclosing : IsRow [.closing e.name.base] :=
        isRow_nil.cons tag.name fun hno => absurd hno (by simp [Fragment.isText])
      obtain ⟨hrow, hstart⟩ :=
        isRow_flatMap_fragments ih hclosing (by simp [StartsWithTag, Fragment.isText])
      exact ((isRow_textFragments e).append hrow hstart).cons ⟨tag.name, tag.attributes.name⟩
        fun hno => absurd hno (by simp [Fragment.isText])

end Element

/-! The characters of a written element. -/

theorem bounds_of_inRanges {ranges : List (Nat × Nat)} {low high n : Nat}
    (hranges : ∀ r ∈ ranges, low ≤ r.1 ∧ r.2 ≤ high) (h : Text.inRanges ranges n = true) :
    low ≤ n ∧ n ≤ high := by
  obtain ⟨r, hr, hlow, hhigh⟩ := Text.inRanges_iff.1 h
  exact ⟨(hranges r hr).1.trans hlow, hhigh.trans (hranges r hr).2⟩

set_option maxRecDepth 4000 in
/-- What may stand in a name is kept, whatever letters the names of a document use. -/
theorem isKept_of_isNameChar [NameLetters] {c : Char} (h : isNameChar c = true) : IsKept c := by
  have hfurther : ∀ d ∈ NameLetters.further, 0x20 ≤ d.toNat ∧ d.toNat ≤ 0xD7A3 :=
    forall_mem_of_all (by decide)
  have hbounds : 0x20 ≤ c.toNat ∧ c.toNat ≤ 0xD7A3 := by
    rcases Bool.or_eq_true_iff.1 h with h | h
    · rcases Bool.or_eq_true_iff.1 h with h | h
      · exact bounds_of_inRanges (by decide) h
      · exact hfurther c (List.contains_iff_mem.1 (Bool.and_eq_true_iff.1 h).2)
    · exact bounds_of_inRanges (by decide) h
  constructor
  · have hlow : ¬ c.toNat < 0x20 := by omega
    have hne : c.toNat ≠ 0xFFFE ∧ c.toNat ≠ 0xFFFF := by omega
    simp [isXmlChar, hlow, hne]
  · rintro rfl
    exact absurd hbounds.1 (by decide)

theorem isKept_of_isName [NameLetters] {name : Name} (h : isName name = true) :
    ∀ c ∈ name, IsKept c := by
  cases name with
  | nil => cases h
  | cons d s =>
    simp only [isName, Bool.and_eq_true, List.all_eq_true] at h
    intro c hc
    rcases List.mem_cons.1 hc with rfl | hc
    · exact isKept_of_isNameChar (isNameChar_of_isNameStart h.1)
    · exact isKept_of_isNameChar (h.2 c hc)

namespace Element

theorem isKept_renderAttribute {e : Element} (h : e.IsWritableTag) :
    ∀ c ∈ e.attributes.flatMap renderAttribute, IsKept c := by
  intro c hc
  obtain ⟨a, ha, hc⟩ := List.mem_flatMap.1 hc
  simp only [renderAttribute, List.mem_append, List.mem_cons] at hc
  rcases hc with ((rfl | hc) | rfl | rfl | hc) | rfl | hc
  · decide
  · exact isKept_of_isName (h.attributes.name a ha) c hc
  · decide
  · decide
  · exact all_escapeAttribute (forall_mem_of_all (by decide))
      (fun d hd hcr => ⟨h.attributes.value a ha d hd, hcr⟩) hc
  · decide
  · cases hc

/-- What a tag or the text of an element is written with is kept by a reader. -/
theorem isKept_of_isWritableTag {e : Element} (h : e.IsWritableTag) :
    (∀ c ∈ (Fragment.opening e.name.base e.attributes).chars, IsKept c) ∧
    (∀ c ∈ (Fragment.single e.name.base e.attributes).chars, IsKept c) ∧
    (∀ c ∈ (Fragment.closing e.name.base).chars, IsKept c) ∧
    (∀ c ∈ escape e.text, IsKept c) := by
  have hname := isKept_of_isName h.name
  have hattributes := isKept_renderAttribute h
  have hend : ∀ c ∈ [' ', '/', '>'], IsKept c := forall_mem_of_all (by decide)
  refine ⟨fun c hc => ?_, fun c hc => ?_, fun c hc => ?_, fun c hc => ?_⟩
  · simp only [Fragment.chars, List.mem_cons, List.mem_append] at hc
    rcases hc with rfl | hc | hc | rfl | hc
    · decide
    · exact hname c hc
    · exact hattributes c hc
    · decide
    · cases hc
  · simp only [Fragment.chars, List.mem_cons, List.mem_append] at hc
    rcases hc with rfl | hc | hc | hc
    · decide
    · exact hname c hc
    · exact hattributes c hc
    · exact hend c (by simpa using hc)
  · simp only [Fragment.chars, List.mem_cons, List.mem_append] at hc
    rcases hc with rfl | rfl | hc | rfl | hc
    · decide
    · decide
    · exact hname c hc
    · decide
    · cases hc
  · exact all_escape (forall_mem_of_all (by decide)) h.text hc

/-- Everything that an element is written with is kept by a reader. -/
theorem isKept_render {e : Element} (h : e.IsWritable) : ∀ c ∈ e.render, IsKept c := by
  induction h with
  | @intro e tag _ ih =>
    obtain ⟨hopening, hsingle, hclosing, htext⟩ := isKept_of_isWritableTag tag
    by_cases hempty : e.text = [] ∧ e.children = []
    · rw [render_of_empty hempty.1 hempty.2]
      exact hsingle
    · rw [render_of_not_empty hempty]
      intro c hc
      simp only [List.mem_append] at hc
      rcases hc with hc | hc | hc | hc
      · exact hopening c hc
      · exact htext c hc
      · obtain ⟨d, hd, hc⟩ := List.mem_flatMap.1 hc
        exact ih d hd c hc
      · exact hclosing c hc

end Element

end LicenseDepot.Markup
