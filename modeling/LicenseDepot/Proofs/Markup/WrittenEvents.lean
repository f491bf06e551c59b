import LicenseDepot.Proofs.Markup.Written
import LicenseDepot.Proofs.Outcome
import Mathlib.Data.List.Nodup

/-!
# The events of a written element

Where nothing is declared, the tokens of a written element have just the events one expects, and
these build the element that was written. Main statement: `Builder.foldlM_fragments`.
-/

namespace LicenseDepot.Markup

/-- Whether a document type declares nothing. -/
structure Dtd.IsBare (d : Dtd) : Prop where
  entities : d.entities = []
  rules : d.rules = []

section Bare

variable {d : Dtd}

/-! The values of attributes. -/

theorem valueOfPiece_attributePiece (lenient : Bool)
    (expand : List Char → Except Malformed (List Char)) (c : Char) :
    valueOfPiece [] lenient expand (attributePiece c) = .ok [c] := by
  unfold attributePiece textPiece
  split
  · rename_i h
    rw [h]
    rfl
  split
  · rfl
  rename_i hspace
  split
  · rename_i h
    rw [h]
    rfl
  split
  · rename_i h
    rw [h]
    rfl
  split
  · rename_i h
    rw [h]
    rfl
  · by_cases hblank : c = ' '
    · rw [hblank]
      rfl
    · have hno : isSpace c = false := by
        simp only [not_or] at hspace
        simp [isSpace, hblank, hspace]
      rw [valueOfPiece, hno]
      rfl

theorem attributeValue_written (lenient : Bool) (s : List Char) :
    attributeValue [] lenient false (s.map attributePiece) = .ok s := by
  have hparts : (s.map attributePiece).mapM
      (valueOfPiece [] lenient fun _ => .error .recursiveEntity) = .ok (s.map fun c => [c]) := by
    rw [List.mapM_map]
    exact mapM_eq_ok_map fun c _ => valueOfPiece_attributePiece lenient _ c
  have hvalue : expandValue [] lenient 0 (s.map attributePiece) = .ok s := by
    rw [expandValue, hparts]
    exact congrArg Except.ok (by simp [← List.flatMap_def])
  rw [attributeValue, List.length_nil, hvalue]
  rfl

theorem allDistinct_of_nodup {α : Type} [BEq α] [LawfulBEq α] {l : List α} (h : l.Nodup) :
    allDistinct l = true := by
  induction l with
  | nil => rfl
  | cons a l ih =>
    obtain ⟨ha, hl⟩ := List.nodup_cons.1 h
    simp [allDistinct, ha, ih hl]

/-- An attribute with its value, as it is read back. -/
def readAttribute (a : ExpandedName × List Char) : QName × List Char :=
  (⟨none, a.1.base⟩, a.2)

theorem AttributesWritable.nodup_names {attributes : List (ExpandedName × List Char)}
    (h : AttributesWritable attributes) :
    ((attributes.map rawAttribute).map RawAttribute.name).Nodup := by
  have hnames : (attributes.map rawAttribute).map RawAttribute.name
      = (attributes.map Prod.fst).map fun n => (⟨none, n.base⟩ : QName) := by
    rw [List.map_map, List.map_map]
    rfl
  rw [hnames]
  refine List.Nodup.map_on ?_ h.distinct
  intro m hm n hn hmn
  obtain ⟨a, ha, rfl⟩ := List.mem_map.1 hm
  obtain ⟨b, hb, rfl⟩ := List.mem_map.1 hn
  have hbase : a.1.base = b.1.base := congrArg QName.base hmn
  have hspace : a.1.space = b.1.space := by rw [h.space a ha, h.space b hb]
  calc a.1 = ⟨a.1.space, a.1.base⟩ := rfl
    _ = ⟨b.1.space, b.1.base⟩ := by rw [hspace, hbase]

theorem attributesOf_written (hd : d.IsBare) (name : QName)
    {attributes : List (ExpandedName × List Char)} (h : AttributesWritable attributes) :
    attributesOf d name (attributes.map rawAttribute) = .ok (attributes.map readAttribute) := by
  have hrule : ∀ tag word, d.rule? tag word = none := by
    intro tag word
    rw [Dtd.rule?, hd.rules]
    rfl
  have hdefaults : d.defaults name.chars = [] := by
    rw [Dtd.defaults, hd.rules]
    rfl
  have hwritten : (attributes.map rawAttribute).mapM (fun a => do
      let words := ((d.rule? name.chars a.name.chars).map AttributeRule.words).getD false
      return (a.name, ← attributeValue d.entities d.lenient words a.value))
      = .ok (attributes.map readAttribute) := by
    rw [List.mapM_map]
    apply mapM_eq_ok_map
    intro a _
    simp only [Function.comp, rawAttribute, hrule, hd.entities]
    rw [Option.map_none, Option.getD_none, attributeValue_written]
    rfl
  rw [attributesOf, allDistinct_of_nodup h.nodup_names, hwritten, hdefaults]
  exact congrArg Except.ok (List.append_nil _)

/-! The events of fragments. -/

theorem eventsOfPiece_textPiece (expand : List Char → Except Malformed (List Event)) (c : Char) :
    eventsOfPiece d expand (textPiece c) = .ok [.char c] := by
  unfold textPiece
  split
  · rename_i h
    rw [h]
    rfl
  split
  · rename_i h
    rw [h]
    rfl
  split
  · rename_i h
    rw [h]
    rfl
  · rfl

namespace Fragment

/-- The events that a fragment stands for. -/
def events : Fragment → List Event
  | .opening name attributes => [.start ⟨none, name⟩ (attributes.map readAttribute)]
  | .single name attributes => [.start ⟨none, name⟩ (attributes.map readAttribute), .finish name]
  | .text s => s.map .char
  | .closing name => [.finish name]

/-- Whether the attributes of a fragment can be read back. -/
def HasWritableAttributes : Fragment → Prop
  | .opening _ attributes | .single _ attributes => AttributesWritable attributes
  | .text _ | .closing _ => True

theorem eventsOfToken_token (hd : d.IsBare)
    (expand : List Char → Except Malformed (List Event)) {f : Fragment}
    (h : f.HasWritableAttributes) : eventsOfToken d expand f.token = .ok f.events := by
  cases f with
  | opening name attributes =>
    rw [token, eventsOfToken, attributesOf_written hd _ h]
    rfl
  | single name attributes =>
    rw [token, eventsOfToken, attributesOf_written hd _ h]
    rfl
  | text s =>
    have hpieces : (s.map textPiece).mapM (eventsOfPiece d expand)
        = .ok (s.map fun c => [.char c]) := by
      rw [List.mapM_map]
      exact mapM_eq_ok_map fun c _ => eventsOfPiece_textPiece expand c
    rw [token, eventsOfToken, hpieces]
    exact congrArg Except.ok List.map_eq_flatMap.symm
  | closing name => rfl

end Fragment

/-- The tokens of fragments stand for their events. -/
theorem eventsOfTokens_fragments (hd : d.IsBare) {fs : List Fragment}
    (h : ∀ f ∈ fs, f.HasWritableAttributes) :
    eventsOfTokens d 0 (fs.map Fragment.token) = .ok (fs.flatMap Fragment.events) := by
  have hparts : (fs.map Fragment.token).mapM (eventsOfToken d fun _ => .error .recursiveEntity)
      = .ok (fs.map Fragment.events) := by
    rw [List.mapM_map]
    exact mapM_eq_ok_map fun f hf => Fragment.eventsOfToken_token hd _ (h f hf)
  rw [eventsOfTokens, hparts]
  rfl

theorem affordable_nil (length : Nat) (names : List Name) :
    Entities.affordable [] length names = true := by
  have htotal :
      names.foldl (fun total n => total + ((Entities.weights [] 0).lookup n).getD 0) length
        = length := by
    induction names with
    | nil => rfl
    | cons n names ih => exact ih
  have hsmall : length ≤ Entities.maxAmplification * length := by
    unfold Entities.maxAmplification
    omega
  simp only [Entities.affordable, List.length_nil, htotal]
  rw [decide_eq_true hsmall, Bool.or_true]

theorem ofTokens_of_isBare (hd : d.IsBare) (length : Nat) (ts : List Token) :
    Event.ofTokens d length ts = eventsOfTokens d 0 ts := by
  rw [Event.ofTokens, hd.entities, affordable_nil]
  rfl

end Bare

namespace Element

theorem hasWritableAttributes_fragments {e : Element} (h : e.IsWritable) :
    ∀ f ∈ e.fragments, f.HasWritableAttributes := by
  induction h with
  | @intro e tag _ ih =>
    by_cases hempty : e.text = [] ∧ e.children = []
    · rw [fragments_of_empty hempty.1 hempty.2]
      intro f hf
      rw [List.mem_singleton.1 hf]
      exact tag.attributes
    · rw [fragments_of_not_empty hempty]
      intro f hf
      simp only [List.mem_cons, List.mem_append, List.not_mem_nil, or_false] at hf
      rcases hf with rfl | hf | hf | rfl
      · exact tag.attributes
      · unfold textFragments at hf
        split at hf
        · cases hf
        · rw [List.mem_singleton.1 hf]
          trivial
      · obtain ⟨c, hc, hf⟩ := List.mem_flatMap.1 hf
        exact ih c hc f hf
      · trivial

/-- The events of an element: it begins, then come its text and its children, and it ends. -/
theorem flatMap_events (e : Element) :
    e.fragments.flatMap Fragment.events
      = .start ⟨none, e.name.base⟩ (e.attributes.map readAttribute) :: (e.text.map .char
        ++ ((e.children.flatMap fragments).flatMap Fragment.events ++ [.finish e.name.base])) := by
  by_cases hempty : e.text = [] ∧ e.children = []
  · rw [fragments_of_empty hempty.1 hempty.2, hempty.1, hempty.2]
    rfl
  · have htext : e.textFragments.flatMap Fragment.events = e.text.map .char := by
      unfold textFragments
      split
      · rename_i htext
        rw [List.isEmpty_iff.1 htext]
        rfl
      · exact List.append_nil _
    rw [fragments_of_not_empty hempty, List.flatMap_cons, List.flatMap_append,
      List.flatMap_append, htext]
    rfl

end Element

/-! Building the element. -/

/-- An element of which only the tag that begins it has been read. -/
def Element.begun (e : Element) (scope : Scope) : OpenElement :=
  ⟨e.name.base, scope, e.name, e.attributes, [], []⟩

/-- An element of which everything but the tag that ends it has been read. -/
def Element.unfinished (e : Element) (scope : Scope) : OpenElement :=
  { e.begun scope with text := e.text.reverse, children := e.children.reverse }

theorem Element.finish_unfinished (e : Element) (scope : Scope) :
    (e.unfinished scope).finish = e := by
  obtain ⟨name, attributes, text, children⟩ := e
  simp [OpenElement.finish, unfinished, begun]

namespace Builder

/-- The builder after a whole element. -/
def add (b : Builder) (e : Element) : Builder :=
  match b.stack with
  | [] => ⟨[], some e⟩
  | p :: outer => { b with stack := { p with children := e :: p.children } :: outer }

theorem enter?_of_bound?_eq_none {scope : Scope} {attributes : List (QName × List Char)}
    (h : ∀ a ∈ attributes, Scope.bound? a.1 = none) : scope.enter? attributes = some scope := by
  unfold Scope.enter?
  induction attributes with
  | nil => rfl
  | cons a attributes ih =>
    obtain ⟨q, value⟩ := a
    have hq : Scope.bound? q = none := h (q, value) List.mem_cons_self
    rw [List.foldlM_cons]
    simp only [hq]
    exact ih fun b hb => h b (List.mem_cons_of_mem _ hb)

theorem mapM_attribute?_written (scope : Scope) {attributes : List (ExpandedName × List Char)}
    (h : ∀ a ∈ attributes, a.1.space = none) :
    (attributes.map readAttribute).mapM (fun a => (scope.attribute? a.1).map (·, a.2))
      = some attributes := by
  induction attributes with
  | nil => rfl
  | cons a attributes ih =>
    obtain ⟨⟨space, base⟩, value⟩ := a
    have hspace : space = none := h _ List.mem_cons_self
    rw [List.map_cons, List.mapM_cons, ih fun b hb => h b (List.mem_cons_of_mem _ hb), hspace]
    rfl

/-- A written tag begins the element that it was written for. -/
theorem begin?_written {scope : Scope} (hscope : scope.lookup none = none) {e : Element}
    (h : e.IsWritableTag) :
    begin? scope ⟨none, e.name.base⟩ (e.attributes.map readAttribute)
      = .ok (e.begun scope) := by
  have hbound : ∀ a ∈ e.attributes.map readAttribute, Scope.bound? a.1 = none := by
    intro r hr
    obtain ⟨a, ha, rfl⟩ := List.mem_map.1 hr
    have hne : (readAttribute a).1 ≠ ⟨none, Scope.binder⟩ := by
      intro heq
      exact h.attributes.binder a ha (congrArg QName.base heq)
    rw [Scope.bound?, if_neg hne, if_neg (by simp [readAttribute])]
  have hproper : (e.attributes.map readAttribute).filter (fun a => (Scope.bound? a.1).isNone)
      = e.attributes.map readAttribute := by
    rw [List.filter_eq_self]
    intro a ha
    rw [hbound a ha]
    rfl
  have hname : scope.element? ⟨none, e.name.base⟩ = some e.name := by
    have hplain : (⟨none, e.name.base⟩ : ExpandedName) = e.name := by rw [← h.space]
    rw [Scope.element?, hscope, ← hplain]
    rfl
  rw [begin?, enter?_of_bound?_eq_none hbound]
  simp only [hproper, hname, mapM_attribute?_written scope h.attributes.space,
    allDistinct_of_nodup h.attributes.distinct]
  rfl

theorem accept_start {b : Builder} (hscope : b.scope.lookup none = none)
    (hroot : b.stack = [] → b.root = none) {e : Element} (h : e.IsWritableTag) :
    b.accept (.start ⟨none, e.name.base⟩ (e.attributes.map readAttribute))
      = .ok ⟨e.begun b.scope :: b.stack, b.root⟩ := by
  have hopen : (b.stack.isEmpty && b.root.isSome) = false := by
    rw [Bool.eq_false_iff]
    intro hboth
    obtain ⟨hempty, hsome⟩ := Bool.and_eq_true_iff.1 hboth
    rw [hroot (List.isEmpty_iff.1 hempty)] at hsome
    cases hsome
  rw [accept, hopen, begin?_written hscope h]
  rfl

theorem foldlM_text {o : OpenElement} (ho : o.children = []) (rest : List OpenElement)
    (root : Option Element) (s : List Char) :
    (s.map Event.char).foldlM accept ⟨o :: rest, root⟩
      = .ok ⟨{ o with text := s.reverse ++ o.text } :: rest, root⟩ := by
  induction s generalizing o with
  | nil => rfl
  | cons c s ih =>
    have hchar : accept ⟨o :: rest, root⟩ (.char c)
        = .ok ⟨{ o with text := c :: o.text } :: rest, root⟩ := by
      simp only [accept, ho]
      rfl
    have htail : (s.map Event.char).foldlM accept ⟨{ o with text := c :: o.text } :: rest, root⟩
        = .ok ⟨{ o with text := s.reverse ++ c :: o.text } :: rest, root⟩ := ih ho
    rw [List.map_cons, List.foldlM_cons, hchar, List.reverse_cons, List.append_assoc]
    exact htail

theorem accept_finish {o : OpenElement} (rest : List OpenElement) (root : Option Element) :
    accept ⟨o :: rest, root⟩ (.finish o.tag) = .ok (add ⟨rest, root⟩ o.finish) := by
  rw [accept]
  simp only [if_true]
  cases rest with
  | nil => rfl
  | cons p outer => rfl

/-- Whole elements are added to the innermost open one in their order. -/
theorem foldlM_children {cs : List Element}
    (h : ∀ c ∈ cs, ∀ b : Builder, b.scope.lookup none = none → (b.stack = [] → b.root = none) →
      (c.fragments.flatMap Fragment.events).foldlM accept b = .ok (b.add c))
    {o : OpenElement} (hscope : o.scope.lookup none = none) (rest : List OpenElement)
    (root : Option Element) :
    ((cs.flatMap Element.fragments).flatMap Fragment.events).foldlM accept ⟨o :: rest, root⟩
      = .ok ⟨{ o with children := cs.reverse ++ o.children } :: rest, root⟩ := by
  induction cs generalizing o with
  | nil => rfl
  | cons c cs ih =>
    have hhead := h c List.mem_cons_self ⟨o :: rest, root⟩ hscope (by simp)
    have htail : ((cs.flatMap Element.fragments).flatMap Fragment.events).foldlM accept
        ⟨{ o with children := c :: o.children } :: rest, root⟩
        = .ok ⟨{ o with children := cs.reverse ++ c :: o.children } :: rest, root⟩ :=
      ih (fun d hd => h d (List.mem_cons_of_mem c hd)) hscope
    rw [List.flatMap_cons, List.flatMap_append, List.foldlM_append, hhead, List.reverse_cons,
      List.append_assoc]
    exact htail

/-- An element is added to what is being built by its tags, once what is between them has made it
all but finished. -/
theorem foldlM_element {e : Element} (h : e.IsWritableTag) {b : Builder}
    (hscope : b.scope.lookup none = none) (hroot : b.stack = [] → b.root = none) {es : List Event}
    (hcontent : es.foldlM accept ⟨e.begun b.scope :: b.stack, b.root⟩
      = .ok ⟨e.unfinished b.scope :: b.stack, b.root⟩) :
    (.start ⟨none, e.name.base⟩ (e.attributes.map readAttribute)
      :: (es ++ [.finish e.name.base])).foldlM accept b = .ok (b.add e) := by
  have hfinish : accept ⟨e.unfinished b.scope :: b.stack, b.root⟩ (.finish e.name.base)
      = .ok (b.add e) := by
    have hadd := accept_finish (o := e.unfinished b.scope) b.stack b.root
    rw [Element.finish_unfinished] at hadd
    exact hadd
  rw [List.foldlM_cons, accept_start hscope hroot h]
  change List.foldlM accept ⟨e.begun b.scope :: b.stack, b.root⟩ _ = _
  rw [List.foldlM_append, hcontent]
  change List.foldlM accept ⟨e.unfinished b.scope :: b.stack, b.root⟩ [.finish e.name.base] = _
  rw [List.foldlM_cons, hfinish]
  rfl

/-- The events of a writable element add it to what is being built. -/
theorem foldlM_fragments {e : Element} (h : e.IsWritable) {b : Builder}
    (hscope : b.scope.lookup none = none) (hroot : b.stack = [] → b.root = none) :
    (e.fragments.flatMap Fragment.events).foldlM accept b = .ok (b.add e) := by
  induction h generalizing b with
  | @intro e tag _ ih =>
    have htext : (e.text.map Event.char).foldlM accept ⟨e.begun b.scope :: b.stack, b.root⟩
        = .ok ⟨{ e.begun b.scope with text := e.text.reverse } :: b.stack, b.root⟩ := by
      rw [foldlM_text rfl]
      simp [Element.begun]
    have hchildren : ((e.children.flatMap Element.fragments).flatMap Fragment.events).foldlM accept
        ⟨{ e.begun b.scope with text := e.text.reverse } :: b.stack, b.root⟩
        = .ok ⟨e.unfinished b.scope :: b.stack, b.root⟩ := by
      rw [foldlM_children (fun c hc b => ih c hc) hscope]
      simp [Element.unfinished, Element.begun]
    rw [Element.flatMap_events, ← List.append_assoc]
    apply foldlM_element tag hscope hroot
    rw [List.foldlM_append, htext]
    exact hchildren

end Builder

end LicenseDepot.Markup
