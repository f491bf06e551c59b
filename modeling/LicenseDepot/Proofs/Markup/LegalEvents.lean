import LicenseDepot.Proofs.Markup.Legal

/-!
# Legal characters in events and elements

Where the entities and defaults of a document type are legal, so is all that legal tokens come to:
the values of attributes, events, and the element that they make. The text of an entity is read
anew, and so the statements on expansion go by induction on its depth. An element is legal if its
text, its attributes and its children are; `Builder.accept` keeps this for the elements that have
begun. Main statements: `isLegal_ofTokens` and `isLegal_ofEvents`.
-/

namespace LicenseDepot.Markup

theorem isXmlChar_of_predefined {name : Name} {c : Char} (h : predefined.lookup name = some c) :
    isXmlChar c = true := by
  have hall : ∀ e ∈ predefined, isXmlChar e.2 = true := by decide
  exact hall _ (mem_of_lookup h)

/-- Whether the text of an entity, if it has one, is legal. -/
def Entity.IsLegal : Entity → Prop
  | .internal text => IsXmlText text
  | .external => True
  | .unparsed => True

/-- Whether whatever a document type brings into the content is legal. -/
structure Dtd.IsLegal (d : Dtd) : Prop where
  entity : ∀ e ∈ d.entities, e.2.IsLegal
  default : ∀ r ∈ d.rules, ∀ v ∈ r.default, IsXmlText v

/-! Values of attributes. -/

section Value

variable {entities : Entities} {lenient : Bool} {v : List Char}

theorem isXmlText_valueOfPiece (hentities : ∀ e ∈ entities, e.2.IsLegal)
    {expand : List Char → Except Malformed (List Char)}
    (hexpand : ∀ text v, IsXmlText text → expand text = .ok v → IsXmlText v) {p : Piece}
    (hp : p.IsLegal) (h : valueOfPiece entities lenient expand p = .ok v) : IsXmlText v := by
  cases p with
  | literal c =>
    cases h
    refine isXmlText_cons.2 ⟨?_, isXmlText_nil⟩
    split
    · decide
    · exact hp
  | character c =>
    cases h
    exact isXmlText_cons.2 ⟨hp, isXmlText_nil⟩
  | entity name =>
    rw [valueOfPiece] at h
    split at h
    · rename_i hname
      cases h
      exact isXmlText_cons.2 ⟨isXmlChar_of_predefined hname, isXmlText_nil⟩
    · split at h
      · split at h
        · cases h
          exact isXmlText_nil
        · cases h
      · rename_i hname
        exact hexpand _ _ (hentities _ (mem_of_lookup hname)) h
      · cases h

theorem isXmlText_expandValue (hentities : ∀ e ∈ entities, e.2.IsLegal) {depth : Nat}
    {ps : List Piece} (hps : ∀ p ∈ ps, p.IsLegal)
    (h : expandValue entities lenient depth ps = .ok v) : IsXmlText v := by
  induction depth generalizing ps v with
  | zero =>
    rw [expandValue] at h
    obtain ⟨parts, hparts, h⟩ := bind_eq_ok_iff.1 h
    cases h
    refine forall_mem_flatten_of_mapM (fun p hp part => ?_) hparts
    apply isXmlText_valueOfPiece hentities _ (hps p hp)
    intro text v _ hno
    cases hno
  | succ depth ih =>
    rw [expandValue] at h
    obtain ⟨parts, hparts, h⟩ := bind_eq_ok_iff.1 h
    cases h
    refine forall_mem_flatten_of_mapM (fun p hp part => ?_) hparts
    apply isXmlText_valueOfPiece hentities _ (hps p hp)
    intro text v htext hv
    split at hv
    · cases hv
    · obtain ⟨inner, hinner, hv⟩ := bind_eq_ok_iff.1 hv
      exact ih (isLegal_pieces htext hinner) hv

theorem isXmlText_collapseSpace {started gap : Bool} {s : List Char} (h : IsXmlText s) :
    IsXmlText (collapseSpace started gap s) := by
  induction s generalizing started gap with
  | nil => exact h
  | cons c s ih =>
    obtain ⟨hc, hs⟩ := isXmlText_cons.1 h
    rw [collapseSpace]
    split
    · exact ih hs
    · split
      · exact isXmlText_cons.2 ⟨by decide, isXmlText_cons.2 ⟨hc, ih hs⟩⟩
      · exact isXmlText_cons.2 ⟨hc, ih hs⟩

/-- The value of an attribute is legal where its pieces and the entities are. -/
theorem isXmlText_attributeValue (hentities : ∀ e ∈ entities, e.2.IsLegal) {words : Bool}
    {ps : List Piece} (hps : ∀ p ∈ ps, p.IsLegal)
    (h : attributeValue entities lenient words ps = .ok v) : IsXmlText v := by
  obtain ⟨s, hs, rfl⟩ := map_eq_ok_iff.1 h
  have hlegal := isXmlText_expandValue hentities hps hs
  split
  · exact isXmlText_collapseSpace hlegal
  · exact hlegal

end Value

/-! Events. -/

/-- Whether an event brings none but legal characters. -/
def Event.IsLegal : Event → Prop
  | .char c => isXmlChar c = true
  | .start _ attributes => ∀ a ∈ attributes, IsXmlText a.2
  | .finish _ => True

section Events

variable {d : Dtd}

theorem isXmlText_attributesOf (hd : d.IsLegal) {element : QName} {raw : List RawAttribute}
    (hraw : ∀ a ∈ raw, a.IsLegal) {attributes : List (QName × List Char)}
    (h : attributesOf d element raw = .ok attributes) : ∀ a ∈ attributes, IsXmlText a.2 := by
  unfold attributesOf at h
  split at h
  · cases h
  · obtain ⟨written, hwritten, h⟩ := bind_eq_ok_iff.1 h
    obtain ⟨added, hadded, h⟩ := bind_eq_ok_iff.1 h
    cases h
    intro a ha
    rcases List.mem_append.1 ha with ha | ha
    · obtain ⟨r, hr, ha⟩ := exists_of_mem_of_mapM_eq_ok hwritten a ha
      obtain ⟨value, hvalue, ha⟩ := bind_eq_ok_iff.1 ha
      cases ha
      exact isXmlText_attributeValue hd.entity (hraw r hr) hvalue
    · obtain ⟨r, hr, ha⟩ := exists_of_mem_of_mapM_eq_ok hadded a ha
      split at ha
      · cases ha
        have hrule : r ∈ d.rules := List.mem_of_mem_filter (List.mem_of_mem_filter hr)
        cases hdefault : r.default with
        | none => exact isXmlText_nil
        | some v => exact hd.default r hrule v hdefault
      · cases ha

section Expansion

variable {expand : List Char → Except Malformed (List Event)}

theorem isLegal_eventsOfPiece (hd : d.IsLegal)
    (hexpand : ∀ text es, IsXmlText text → expand text = .ok es → ∀ e ∈ es, e.IsLegal)
    {p : Piece} (hp : p.IsLegal) {es : List Event} (h : eventsOfPiece d expand p = .ok es) :
    ∀ e ∈ es, e.IsLegal := by
  cases p with
  | literal c =>
    cases h
    exact List.forall_mem_singleton.2 hp
  | character c =>
    cases h
    exact List.forall_mem_singleton.2 hp
  | entity name =>
    rw [eventsOfPiece] at h
    split at h
    · rename_i hname
      cases h
      exact List.forall_mem_singleton.2 (isXmlChar_of_predefined hname)
    · split at h
      · cases h
      · rename_i hname
        exact hexpand _ _ (hd.entity _ (mem_of_lookup hname)) h
      · cases h

theorem isLegal_eventsOfToken (hd : d.IsLegal)
    (hexpand : ∀ text es, IsXmlText text → expand text = .ok es → ∀ e ∈ es, e.IsLegal)
    {t : Token} (ht : t.IsLegal) {es : List Event} (h : eventsOfToken d expand t = .ok es) :
    ∀ e ∈ es, e.IsLegal := by
  cases t with
  | data ps =>
    obtain ⟨parts, hparts, rfl⟩ := map_eq_ok_iff.1 h
    exact forall_mem_flatten_of_mapM
      (fun p hp _ => isLegal_eventsOfPiece hd hexpand (ht p hp)) hparts
  | cdata text =>
    cases h
    intro e he
    obtain ⟨c, hc, rfl⟩ := List.mem_map.1 he
    exact ht c hc
  | opening name raw =>
    obtain ⟨attributes, hattributes, rfl⟩ := map_eq_ok_iff.1 h
    exact List.forall_mem_singleton.2 (isXmlText_attributesOf hd ht hattributes)
  | single name raw =>
    obtain ⟨attributes, hattributes, rfl⟩ := map_eq_ok_iff.1 h
    rw [List.forall_mem_cons]
    constructor
    · exact isXmlText_attributesOf hd ht hattributes
    · exact List.forall_mem_singleton.2 trivial
  | closing name =>
    cases h
    exact List.forall_mem_singleton.2 trivial

end Expansion

theorem isLegal_eventsOfTokens (hd : d.IsLegal) {depth : Nat} {ts : List Token}
    (hts : ∀ t ∈ ts, t.IsLegal) {es : List Event} (h : eventsOfTokens d depth ts = .ok es) :
    ∀ e ∈ es, e.IsLegal := by
  induction depth generalizing ts es with
  | zero =>
    rw [eventsOfTokens] at h
    obtain ⟨parts, hparts, rfl⟩ := map_eq_ok_iff.1 h
    refine forall_mem_flatten_of_mapM (fun t ht part => ?_) hparts
    apply isLegal_eventsOfToken hd _ (hts t ht)
    intro text es _ hno
    cases hno
  | succ depth ih =>
    rw [eventsOfTokens] at h
    obtain ⟨parts, hparts, rfl⟩ := map_eq_ok_iff.1 h
    refine forall_mem_flatten_of_mapM (fun t ht part => ?_) hparts
    apply isLegal_eventsOfToken hd _ (hts t ht)
    intro text es htext hes
    obtain ⟨tokens, htokens, hes⟩ := bind_eq_ok_iff.1 hes
    obtain ⟨inner, hinner, hes⟩ := bind_eq_ok_iff.1 hes
    split at hes
    · cases hes
      exact ih (isLegal_scan htext htokens) hinner
    · cases hes

/-- The events of legal tokens are legal. -/
theorem isLegal_ofTokens (hd : d.IsLegal) {length : Nat} {ts : List Token}
    (hts : ∀ t ∈ ts, t.IsLegal) {es : List Event} (h : Event.ofTokens d length ts = .ok es) :
    ∀ e ∈ es, e.IsLegal := by
  unfold Event.ofTokens at h
  split at h
  · exact isLegal_eventsOfTokens hd hts h
  · cases h

end Events

/-! Elements. -/

/-- Whether all text in an element, its attributes and its children is legal. -/
inductive Element.IsLegal : Element → Prop
  | intro {e : Element} (values : ∀ a ∈ e.attributes, IsXmlText a.2) (text : IsXmlText e.text)
    (children : ∀ c ∈ e.children, c.IsLegal) : e.IsLegal

namespace Element.IsLegal

variable {e : Element}

theorem values (h : e.IsLegal) : ∀ a ∈ e.attributes, IsXmlText a.2 := by
  cases h
  assumption

theorem text (h : e.IsLegal) : IsXmlText e.text := by
  cases h
  assumption

theorem children (h : e.IsLegal) : ∀ c ∈ e.children, c.IsLegal := by
  cases h
  assumption

theorem childrenNamed (h : e.IsLegal) (name : String) : ∀ c ∈ e.childrenNamed name, c.IsLegal :=
  fun c hc => h.children c (List.mem_of_mem_filter hc)

theorem attribute? (h : e.IsLegal) {name : String} {v : List Char}
    (hv : e.attribute? name = some v) : IsXmlText v :=
  h.values _ (mem_of_lookup hv)

end Element.IsLegal

/-- Whether what has been taken in of an element is legal. -/
structure OpenElement.IsLegal (o : OpenElement) : Prop where
  values : ∀ a ∈ o.attributes, IsXmlText a.2
  text : IsXmlText o.text
  children : ∀ c ∈ o.children, c.IsLegal

theorem OpenElement.IsLegal.finish {o : OpenElement} (h : o.IsLegal) : o.finish.IsLegal := by
  apply Element.IsLegal.intro h.values
  · exact fun c hc => h.text c (List.mem_reverse.1 hc)
  · exact fun c hc => h.children c (List.mem_reverse.1 hc)

/-- Whether all elements that have begun, and the root if it has ended, are legal. -/
structure Builder.IsLegal (b : Builder) : Prop where
  stack : ∀ o ∈ b.stack, o.IsLegal
  root : ∀ e ∈ b.root, e.IsLegal

/-- Expanding the names of attributes leaves their values as they are. -/
theorem exists_of_mem_mapM_attribute? {scope : Scope} {attributes : List (QName × List Char)}
    {expanded : List (ExpandedName × List Char)}
    (h : (attributes.mapM fun a => (scope.attribute? a.1).map (·, a.2)) = some expanded) :
    ∀ x ∈ expanded, ∃ a ∈ attributes, x.2 = a.2 := by
  induction attributes generalizing expanded with
  | nil =>
    cases h
    simp
  | cons a attributes ih =>
    rw [List.mapM_cons] at h
    obtain ⟨y, hy, h⟩ := Option.bind_eq_some_iff.1 h
    obtain ⟨ys, hys, h⟩ := Option.bind_eq_some_iff.1 h
    obtain ⟨name, -, rfl⟩ := Option.map_eq_some_iff.1 hy
    cases h
    intro x hx
    rcases List.mem_cons.1 hx with rfl | hx
    · exact ⟨a, List.mem_cons_self, rfl⟩
    · obtain ⟨a', ha', heq⟩ := ih hys x hx
      exact ⟨a', List.mem_cons_of_mem a ha', heq⟩

namespace Builder

theorem isLegal_begin? {scope : Scope} {q : QName} {attributes : List (QName × List Char)}
    (hattributes : ∀ a ∈ attributes, IsXmlText a.2) {o : OpenElement}
    (h : begin? scope q attributes = .ok o) : o.IsLegal := by
  unfold begin? at h
  split at h
  · cases h
  · simp only at h
    split at h
    · rename_i hexpanded
      split at h
      · cases h
        refine ⟨fun x hx => ?_, isXmlText_nil, by simp⟩
        obtain ⟨a, ha, heq⟩ := exists_of_mem_mapM_attribute? hexpanded x hx
        rw [heq]
        exact hattributes a (List.mem_of_mem_filter ha)
      · cases h
    · cases h

/-- A legal event keeps what has been taken in legal. -/
theorem IsLegal.accept {b b' : Builder} (hb : b.IsLegal) {e : Event} (he : e.IsLegal)
    (h : b.accept e = .ok b') : b'.IsLegal := by
  cases e with
  | char c =>
    rw [Builder.accept] at h
    split at h
    · cases h
    · rename_i o rest hstack
      obtain ⟨ho, hrest⟩ := List.forall_mem_cons.1 (hstack ▸ hb.stack)
      cases h
      split
      · refine ⟨List.forall_mem_cons.2 ⟨?_, hrest⟩, hb.root⟩
        exact ⟨ho.values, isXmlText_cons.2 ⟨he, ho.text⟩, ho.children⟩
      · exact hb
  | start q attributes =>
    rw [Builder.accept] at h
    split at h
    · cases h
    · obtain ⟨o, ho, rfl⟩ := map_eq_ok_iff.1 h
      exact ⟨List.forall_mem_cons.2 ⟨isLegal_begin? he ho, hb.stack⟩, hb.root⟩
  | finish tag =>
    rw [Builder.accept] at h
    split at h
    · cases h
    · rename_i o rest hstack
      obtain ⟨ho, hrest⟩ := List.forall_mem_cons.1 (hstack ▸ hb.stack)
      split at h
      · split at h
        · cases h
          refine ⟨by simp, fun e he => ?_⟩
          cases he
          exact ho.finish
        · rename_i p outer
          obtain ⟨hp, houter⟩ := List.forall_mem_cons.1 hrest
          cases h
          refine ⟨List.forall_mem_cons.2 ⟨?_, houter⟩, hb.root⟩
          exact ⟨hp.values, hp.text, List.forall_mem_cons.2 ⟨ho.finish, hp.children⟩⟩
      · cases h

end Builder

/-- The element that legal events make is legal. -/
theorem isLegal_ofEvents {es : List Event} (hes : ∀ e ∈ es, e.IsLegal) {root : Element}
    (h : Element.ofEvents es = .ok root) : root.IsLegal := by
  obtain ⟨b, hb, h⟩ := bind_eq_ok_iff.1 h
  have hlegal : b.IsLegal :=
    of_foldlM_eq_ok (fun b hb e he b' h => hb.accept (hes e he) h)
      ⟨by simp [Builder.empty], by simp [Builder.empty]⟩ hb
  split at h
  · rename_i hroot
    cases h
    exact hlegal.root _ hroot
  · cases h

end LicenseDepot.Markup
