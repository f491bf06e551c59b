import LicenseDepot.Proofs.Markup.Height

/-!
# Layout between elements

A written element has no layout, but documents that come from elsewhere do. Two kinds of rows of
fragments are told apart: those that are read as one element wherever they stand (`IsElementRow`),
and those that are read as the content of an element (`IsContentRow`): a text, and then elements
with other text around them, which a reader does not keep. A written element is a row of the first
kind (`isElementRow_fragments`), and so is content between tags (`IsContentRow.isElementRow`).
Main statement: elements between runs of blanks are content (`Spaced.exists_isContentRow`).
-/

namespace LicenseDepot.Markup

open Text

/-! ### Rows with text between tags -/

/-- Whether the last of some fragments, if there is one, is a tag. -/
def EndsWithTag (fs : List Fragment) : Prop :=
  ∀ f ∈ fs.getLast?, f.isText = false

theorem endsWithTag_concat {f : Fragment} (h : f.isText = false) (fs : List Fragment) :
    EndsWithTag (fs ++ [f]) := by
  intro g hg
  rw [List.getLast?_concat] at hg
  cases hg
  exact h

/-- Rows meet where a tag ends the first one, whatever begins the second. -/
theorem IsRow.append_of_endsWithTag {fs gs : List Fragment} (hfs : IsRow fs) (hgs : IsRow gs)
    (hmeet : EndsWithTag fs) : IsRow (fs ++ gs) where
  valid := List.forall_mem_append.2 ⟨hfs.valid, hgs.valid⟩
  separated := by
    refine List.isChain_append.2 ⟨hfs.separated, hgs.separated, fun f hf g _ htext => ?_⟩
    rw [hmeet f hf] at htext
    cases htext

/-- The fragments of a run of text: a single one, or none where there is no text. -/
def textRow (s : List Char) : List Fragment :=
  if s.isEmpty then [] else [.text s]

theorem isRow_textRow (s : List Char) : IsRow (textRow s) :=
  Element.isRow_textFragments { name := .plain [], text := s }

theorem flatMap_chars_textRow (s : List Char) : (textRow s).flatMap Fragment.chars = escape s :=
  Element.flatMap_textFragments { name := .plain [], text := s }

theorem flatMap_events_textRow (s : List Char) :
    (textRow s).flatMap Fragment.events = s.map Event.char := by
  cases s with
  | nil => rfl
  | cons c s => exact List.append_nil _

theorem hasWritableAttributes_textRow {s : List Char} :
    ∀ f ∈ textRow s, f.HasWritableAttributes := by
  intro f hf
  cases s with
  | nil => cases hf
  | cons c s =>
    rw [List.mem_singleton.1 hf]
    trivial

theorem isLevel_textRow (s : List Char) : IsLevel ((textRow s).map Fragment.token) := by
  cases s with
  | nil => exact isLevel_nil
  | cons c s => exact isLevel_of_isData rfl

/-! ### Rows that are read as elements -/

/-- An open element after some text and some elements. Text counts before the first child only. -/
def OpenElement.holding (o : OpenElement) (text : List Char) (cs : List Element) : OpenElement :=
  { o with
    text := if o.children.isEmpty then text.reverse ++ o.text else o.text
    children := cs.reverse ++ o.children }

/-- Whether a row of fragments is read as one element, wherever it stands. -/
structure IsElementRow (fs : List Fragment) (e : Element) : Prop where
  row : IsRow fs
  starts : ∃ f gs, fs = f :: gs ∧ f.isText = false
  ends : EndsWithTag fs
  attributes : ∀ f ∈ fs, f.HasWritableAttributes
  kept : ∀ c ∈ fs.flatMap Fragment.chars, IsKept c
  arch : IsArch (fs.map Fragment.token)
  build : ∀ b : Builder, b.scope.lookup none = none → (b.stack = [] → b.root = none) →
    (fs.flatMap Fragment.events).foldlM Builder.accept b = .ok (b.add e)

/-- Whether a row of fragments is read as a text and elements after it, inside of any element. -/
structure IsContentRow (fs : List Fragment) (text : List Char) (cs : List Element) : Prop where
  row : IsRow fs
  attributes : ∀ f ∈ fs, f.HasWritableAttributes
  kept : ∀ c ∈ fs.flatMap Fragment.chars, IsKept c
  level : IsLevel (fs.map Fragment.token)
  build : ∀ (o : OpenElement) (rest : List OpenElement) (root : Option Element),
    o.scope.lookup none = none →
      (fs.flatMap Fragment.events).foldlM Builder.accept ⟨o :: rest, root⟩
        = .ok ⟨o.holding text cs :: rest, root⟩

theorem IsElementRow.startsWithTag {fs gs : List Fragment} {e : Element} (h : IsElementRow fs e) :
    StartsWithTag (fs ++ gs) := by
  obtain ⟨f, fs, rfl, hf⟩ := h.starts
  intro g hg
  cases hg
  exact hf

/-- Such a row is all of the root element: it leads with a tag, and since it stays open from there
on up to its end, this tag begins the element. -/
theorem IsElementRow.divideRoot_eq {fs : List Fragment} {e : Element} (h : IsElementRow fs e) :
    divideRoot (fs.map Fragment.token) = .ok (fs.map Fragment.token, []) := by
  refine divideRoot_eq_ok_iff.2 ⟨?_, h.arch.splitRoot_eq⟩
  have harch := h.arch
  obtain ⟨f, gs, rfl, hf⟩ := h.starts
  rw [List.map_cons] at harch
  cases f with
  | opening name attributes => rfl
  | single name attributes => rfl
  | text s => cases hf
  | closing name =>
    have := harch.isLevel.nonneg [.closing name] (by simp [Fragment.token])
    simp [Token.rise] at this

/-- The fragments of a written element are read as that element. -/
theorem isElementRow_fragments {e : Element} (h : e.IsWritable) : IsElementRow e.fragments e where
  row := Element.isRow_fragments h
  starts := by
    by_cases hempty : e.text = [] ∧ e.children = []
    · exact ⟨_, _, Element.fragments_of_empty hempty.1 hempty.2, rfl⟩
    · exact ⟨_, _, Element.fragments_of_not_empty hempty, rfl⟩
  ends := by
    by_cases hempty : e.text = [] ∧ e.children = []
    · rw [Element.fragments_of_empty hempty.1 hempty.2]
      exact endsWithTag_concat rfl []
    · rw [Element.fragments_of_not_empty hempty, ← List.append_assoc, ← List.cons_append]
      exact endsWithTag_concat rfl _
  attributes := Element.hasWritableAttributes_fragments h
  kept := by
    rw [← Element.render_eq_flatMap]
    exact Element.isKept_render h
  arch := Element.isArch_tokens e
  build := fun _ => Builder.foldlM_fragments h

/-- The tokens of such a row make the element. -/
theorem IsElementRow.ofEvents {fs : List Fragment} {e : Element} (h : IsElementRow fs e) {d : Dtd}
    (hd : d.IsBare) (length : Nat) :
    (Event.ofTokens d length (fs.map Fragment.token)).bind Element.ofEvents = .ok e := by
  have hbuild := h.build Builder.empty rfl fun _ => rfl
  rw [ofTokens_of_isBare hd, eventsOfTokens_fragments hd h.attributes]
  change Element.ofEvents _ = _
  rw [Element.ofEvents, hbuild]
  rfl

/-- Text after a child is passed over. -/
theorem Builder.foldlM_text_of_children {o : OpenElement} (ho : o.children ≠ [])
    (rest : List OpenElement) (root : Option Element) (s : List Char) :
    (s.map Event.char).foldlM accept ⟨o :: rest, root⟩ = .ok ⟨o :: rest, root⟩ := by
  induction s with
  | nil => rfl
  | cons c s ih =>
    have hchar : accept ⟨o :: rest, root⟩ (.char c) = .ok ⟨o :: rest, root⟩ := by simp [accept, ho]
    rw [List.map_cons, List.foldlM_cons, hchar]
    exact ih

/-- A run of text is content. -/
theorem isContentRow_textRow {s : List Char} (h : ∀ c ∈ s, IsKept c) :
    IsContentRow (textRow s) s [] where
  row := isRow_textRow s
  attributes := hasWritableAttributes_textRow
  kept := by
    rw [flatMap_chars_textRow]
    exact fun c hc => all_escape (forall_mem_of_all (by decide)) h hc
  level := isLevel_textRow s
  build := by
    intro o rest root _
    rw [flatMap_events_textRow]
    by_cases hchildren : o.children = []
    · rw [Builder.foldlM_text hchildren]
      simp [OpenElement.holding, hchildren]
    · rw [Builder.foldlM_text_of_children hchildren]
      simp [OpenElement.holding, hchildren]

/-- A text and an element before some content are content; what was the text of that is passed
over. -/
theorem IsContentRow.cons {s text : List Char} {fs gs : List Fragment} {e : Element}
    {cs : List Element} (hs : ∀ c ∈ s, IsKept c) (hfs : IsElementRow fs e)
    (hgs : IsContentRow gs text cs) : IsContentRow (textRow s ++ (fs ++ gs)) s (e :: cs) where
  row := (isRow_textRow s).append (hfs.row.append_of_endsWithTag hgs.row hfs.ends)
    hfs.startsWithTag
  attributes := by
    rw [List.forall_mem_append, List.forall_mem_append]
    exact ⟨hasWritableAttributes_textRow, hfs.attributes, hgs.attributes⟩
  kept := by
    rw [List.flatMap_append, List.flatMap_append, List.forall_mem_append, List.forall_mem_append]
    exact ⟨(isContentRow_textRow hs).kept, hfs.kept, hgs.kept⟩
  level := by
    rw [List.map_append, List.map_append]
    exact (isLevel_textRow s).append (hfs.arch.isLevel.append hgs.level)
  build := by
    intro o rest root hscope
    have htext := (isContentRow_textRow hs).build o rest root hscope
    have helement := hfs.build ⟨o.holding s [] :: rest, root⟩ hscope (by simp)
    have hrest := hgs.build { o.holding s [] with children := e :: (o.holding s []).children } rest
      root hscope
    have hholding : OpenElement.holding
        { o.holding s [] with children := e :: (o.holding s []).children } text cs
          = o.holding s (e :: cs) := by
      simp [OpenElement.holding]
    rw [List.flatMap_append, List.flatMap_append, List.foldlM_append, htext]
    change List.foldlM Builder.accept ⟨o.holding s [] :: rest, root⟩ _ = _
    rw [List.foldlM_append, helement, ← hholding]
    exact hrest

/-- Content between the tags of an element is read as the element that has it. -/
theorem IsContentRow.isElementRow {e : Element} (htag : e.IsWritableTag) {fs : List Fragment}
    (h : IsContentRow fs e.text e.children) :
    IsElementRow (.opening e.name.base e.attributes :: (fs ++ [.closing e.name.base])) e where
  row := by
    have hclosing : IsRow [.closing e.name.base] :=
      isRow_nil.cons htag.name fun hno => absurd hno (by simp [Fragment.isText])
    have hcontent : IsRow (fs ++ [.closing e.name.base]) :=
      h.row.append hclosing (by simp [StartsWithTag, Fragment.isText])
    exact hcontent.cons ⟨htag.name, htag.attributes.name⟩ fun hno =>
      absurd hno (by simp [Fragment.isText])
  starts := ⟨_, _, rfl, rfl⟩
  ends := by
    rw [← List.cons_append]
    exact endsWithTag_concat rfl _
  attributes := by
    rw [List.forall_mem_cons, List.forall_mem_append, List.forall_mem_singleton]
    exact ⟨htag.attributes, h.attributes, trivial⟩
  kept := by
    obtain ⟨hopening, -, hclosing, -⟩ := Element.isKept_of_isWritableTag htag
    rw [List.flatMap_cons, List.flatMap_append, List.flatMap_singleton, List.forall_mem_append,
      List.forall_mem_append]
    exact ⟨hopening, h.kept, hclosing⟩
  arch := by
    rw [List.map_cons, List.map_append]
    exact h.level.isArch _ _ _
  build := by
    intro b hscope hroot
    have hcontent := h.build (e.begun b.scope) b.stack b.root hscope
    have hunfinished : (e.begun b.scope).holding e.text e.children = e.unfinished b.scope := by
      simp [OpenElement.holding, Element.unfinished, Element.begun]
    rw [hunfinished] at hcontent
    rw [List.flatMap_cons, List.flatMap_append]
    exact Builder.foldlM_element htag hscope hroot hcontent

/-! ### Runs of blanks -/

/-- Whether some text is a run of spaces, tabs and line ends, which may be empty. -/
def IsRun (s : List Char) : Prop :=
  ∀ c ∈ s, c = ' ' ∨ c = '\t' ∨ c = '\n'

theorem isRun_nil : IsRun [] := by
  intro c hc
  cases hc

/-- What holds of the three blanks holds of all characters of a run. -/
theorem IsRun.forall_mem {s : List Char} (h : IsRun s) {P : Char → Prop}
    (hblank : P ' ' ∧ P '\t' ∧ P '\n') : ∀ c ∈ s, P c := by
  intro c hc
  rcases h c hc with rfl | rfl | rfl
  · exact hblank.1
  · exact hblank.2.1
  · exact hblank.2.2

theorem IsRun.isKept {s : List Char} (h : IsRun s) : ∀ c ∈ s, IsKept c :=
  h.forall_mem (by decide)

/-- Nothing in a run has to be escaped. -/
theorem IsRun.escape_eq_self {s : List Char} (h : IsRun s) : escape s = s := by
  have hchar : ∀ c ∈ s, escapeChar c = [c] := h.forall_mem (by decide)
  calc
    escape s = s.flatMap fun c => [c] := List.flatMap_congr hchar
    _ = s := List.flatMap_singleton' s

/-- Texts one after the other, with runs of blanks before, between and after them. -/
inductive Spaced : List (List Char) → List Char → Prop
  | nil {run : List Char} (hrun : IsRun run) : Spaced [] run
  | cons {run t : List Char} {ts : List (List Char)} {s : List Char} (hrun : IsRun run)
      (h : Spaced ts s) : Spaced (t :: ts) (run ++ (t ++ s))

/-- The texts are what is left when the runs are taken away. -/
theorem Spaced.sublist {ts : List (List Char)} {s : List Char} (h : Spaced ts s) :
    ts.flatten.Sublist s := by
  induction h with
  | nil => exact List.nil_sublist _
  | @cons run t ts s _ _ ih =>
    rw [List.flatten_cons]
    exact ((List.Sublist.refl t).append ih).trans (List.sublist_append_right run _)

/-- Whether a text is read as an element, wherever it stands. -/
def ReadsAs (s : List Char) (e : Element) : Prop :=
  ∃ fs, fs.flatMap Fragment.chars = s ∧ IsElementRow fs e

theorem readsAs_render {e : Element} (h : e.IsWritable) : ReadsAs e.render e :=
  ⟨e.fragments, (Element.render_eq_flatMap e).symm, isElementRow_fragments h⟩

/-- Elements with runs of blanks before, between and after them are content: the first run is its
text, and the others are passed over. -/
theorem Spaced.exists_isContentRow {ts : List (List Char)} {s : List Char} (h : Spaced ts s)
    {cs : List Element} (hread : List.Forall₂ ReadsAs ts cs) :
    ∃ fs run, fs.flatMap Fragment.chars = s ∧ IsRun run ∧ IsContentRow fs run cs := by
  induction h generalizing cs with
  | @nil run hrun =>
    cases hread
    refine ⟨textRow run, run, ?_, hrun, isContentRow_textRow hrun.isKept⟩
    rw [flatMap_chars_textRow, hrun.escape_eq_self]
  | @cons run t ts s hrun _ ih =>
    cases hread with
    | cons hfirst hread =>
      obtain ⟨fs, rfl, hfs⟩ := hfirst
      obtain ⟨gs, text, rfl, -, hgs⟩ := ih hread
      refine ⟨textRow run ++ (fs ++ gs), run, ?_, hrun, hgs.cons hrun.isKept hfs⟩
      rw [List.flatMap_append, List.flatMap_append, flatMap_chars_textRow, hrun.escape_eq_self]

/-- What an element without attributes is written with around its content. -/
def within (name : String) (s : List Char) : List Char :=
  '<' :: (name.toList ++ '>' :: (s ++ '<' :: '/' :: (name.toList ++ ['>'])))

theorem within_sublist {s t : List Char} (name : String) (h : s.Sublist t) :
    (within name s).Sublist (within name t) := by
  apply List.Sublist.cons_cons
  apply List.Sublist.append (.refl _)
  exact (h.append (.refl _)).cons_cons _

/-- Elements with runs of blanks around them are read as the children of the element whose tags
they are within. -/
theorem Spaced.readsAs_within {name : String} (hname : isName name.toList = true)
    {ts : List (List Char)} {s : List Char} (h : Spaced ts s) {cs : List Element}
    (hread : List.Forall₂ ReadsAs ts cs) :
    ∃ run, ReadsAs (within name s) ⟨.plain name.toList, [], run, cs⟩ := by
  obtain ⟨fs, run, rfl, hrun, hfs⟩ := h.exists_isContentRow hread
  have htag : Element.IsWritableTag ⟨.plain name.toList, [], run, cs⟩ :=
    ⟨rfl, hname, ⟨by simp, by simp, by simp, by simp, by simp⟩, hrun.isKept⟩
  refine ⟨run, _, ?_, IsContentRow.isElementRow htag hfs⟩
  simp [within, Fragment.chars, ExpandedName.plain]

end LicenseDepot.Markup
