import LicenseDepot.Proofs.Markup.Cut
import LicenseDepot.Proofs.Markup.WrittenEvents
import Mathlib.Algebra.Ring.Int.Defs

/-!
# How deep a row of fragments leads

The height of some fragments is the number of elements that they leave open. Inside a written
element it is positive from the first tag up to the last, so what is read of an element ends exactly
where it ends (`IsArch.splitRoot_eq`), and what is left of one that is cut off is no element
(`ofEvents_ne_ok_of_isPrefix`).
-/

namespace LicenseDepot.Markup

/-- By how much a token changes the number of open elements. -/
def Token.rise : Token → Int
  | .opening _ _ => 1
  | .closing _ => -1
  | _ => 0

/-- The number of elements that some tokens leave open. -/
def height (ts : List Token) : Int :=
  (ts.map Token.rise).sum

@[simp] theorem height_nil : height [] = 0 := rfl

@[simp] theorem height_cons (t : Token) (ts : List Token) :
    height (t :: ts) = t.rise + height ts := by
  simp [height]

@[simp] theorem height_append (ts us : List Token) : height (ts ++ us) = height ts + height us := by
  simp [height]

theorem height_of_isData {ts : List Token} (h : ∀ t ∈ ts, t.isData = true) : height ts = 0 := by
  induction ts with
  | nil => rfl
  | cons t ts ih =>
    have ht : t.rise = 0 := by
      have hdata := h t List.mem_cons_self
      cases t with
      | data ps => rfl
      | _ => cases hdata
    rw [height_cons, ht, ih fun u hu => h u (List.mem_cons_of_mem t hu)]
    rfl

/-- Tokens that never lead below where they begin, and end there. -/
structure IsLevel (ts : List Token) : Prop where
  nonneg : ∀ p, p <+: ts → 0 ≤ height p
  total : height ts = 0

theorem isLevel_nil : IsLevel [] := by
  refine ⟨fun p hp => ?_, rfl⟩
  rw [List.prefix_nil.1 hp]
  exact Int.le_refl 0

theorem IsLevel.append {ts us : List Token} (hts : IsLevel ts) (hus : IsLevel us) :
    IsLevel (ts ++ us) := by
  refine ⟨fun p hp => ?_, ?_⟩
  · rcases List.prefix_or_prefix_of_prefix hp (List.prefix_append ts us) with hp | ⟨q, rfl⟩
    · exact hts.nonneg p hp
    · have hq := hus.nonneg q ((List.prefix_append_right_inj ts).1 hp)
      rw [height_append, hts.total]
      omega
  · rw [height_append, hts.total, hus.total]
    rfl

/-- Tokens that stay above where they begin, except for their ends. -/
structure IsArch (ts : List Token) : Prop where
  pos : ∀ p, p <+: ts → p ≠ [] → p ≠ ts → 0 < height p
  total : height ts = 0

theorem IsArch.isLevel {ts : List Token} (h : IsArch ts) : IsLevel ts := by
  refine ⟨fun p hp => ?_, h.total⟩
  by_cases hnil : p = []
  · rw [hnil]
    exact Int.le_refl 0
  by_cases hall : p = ts
  · rw [hall]
    exact Int.le_of_eq h.total.symm
  · have := h.pos p hp hnil hall
    omega

/-- Between a tag that begins an element and one that ends it, level tokens are raised. -/
theorem IsLevel.isArch {ts : List Token} (h : IsLevel ts) (name : QName)
    (attributes : List RawAttribute) (tag : Name) :
    IsArch (.opening name attributes :: (ts ++ [.closing tag])) := by
  refine ⟨fun p hp hnil hall => ?_, by simp [h.total, Token.rise]⟩
  obtain ⟨t, q, rfl⟩ := List.exists_cons_of_ne_nil hnil
  obtain ⟨rfl, hq⟩ := List.cons_prefix_cons.1 hp
  have hq : q <+: ts := by
    rcases List.prefix_concat_iff.1 hq with heq | hq
    · exact absurd (by rw [heq]) hall
    · exact hq
  have := h.nonneg q hq
  rw [height_cons, Token.rise]
  omega

theorem isLevel_flatMap {α : Type} {f : α → List Token} {as : List α}
    (h : ∀ a ∈ as, IsLevel (f a)) : IsLevel (as.flatMap f) := by
  induction as with
  | nil => exact isLevel_nil
  | cons a as ih =>
    exact (h a List.mem_cons_self).append (ih fun b hb => h b (List.mem_cons_of_mem a hb))

theorem isLevel_of_isData {t : Token} (h : t.isData = true) : IsLevel [t] := by
  have hall : ∀ u ∈ [t], u.isData = true := by simpa using h
  refine ⟨fun p hp => ?_, height_of_isData hall⟩
  exact Int.le_of_eq (height_of_isData fun u hu => hall u (hp.subset hu)).symm

namespace Element

/-- The tokens of a written element. -/
def tokens (e : Element) : List Token :=
  e.fragments.map Fragment.token

/-- A written element stays open from its first tag up to its last. -/
theorem isArch_tokens (e : Element) : IsArch e.tokens := by
  induction e using induct with
  | step e ih =>
    unfold tokens
    by_cases hempty : e.text = [] ∧ e.children = []
    · rw [fragments_of_empty hempty.1 hempty.2]
      refine ⟨fun p hp hnil hall => ?_, rfl⟩
      obtain ⟨t, q, rfl⟩ := List.exists_cons_of_ne_nil hnil
      obtain ⟨rfl, hq⟩ := List.cons_prefix_cons.1 hp
      rw [List.prefix_nil.1 hq] at hall
      exact absurd rfl hall
    · have htext : IsLevel (e.textFragments.map Fragment.token) := by
        unfold textFragments
        split
        · exact isLevel_nil
        · exact isLevel_of_isData rfl
      have hchildren : IsLevel ((e.children.flatMap fragments).map Fragment.token) := by
        rw [List.map_flatMap]
        exact isLevel_flatMap fun c hc => (ih c hc).isLevel
      rw [fragments_of_not_empty hempty, List.map_cons, List.map_append, List.map_append,
        ← List.append_assoc]
      exact (htext.append hchildren).isArch _ _ _

end Element

/-! The end of the root element. -/

/-- Tokens that stay open until their end are not divided before it. -/
theorem splitRoot_of_pos {depth : Nat} {ts : List Token}
    (h : ∀ p, p <+: ts → p ≠ [] → p ≠ ts → 0 < depth + height p) (done : List Token) :
    splitRoot depth done ts = (done.reverse ++ ts, []) := by
  induction ts generalizing depth done with
  | nil => simp [splitRoot]
  | cons t ts ih =>
    by_cases hts : ts = []
    · rw [hts]
      cases t <;> simp [splitRoot]
    · have hfirst := h [t] (by simp) (by simp) (by simpa using hts)
      rw [height_cons, height_nil, Int.add_zero] at hfirst
      have hrest : ∀ next : Nat, (next : Int) = depth + t.rise →
          splitRoot next (t :: done) ts = ((t :: done).reverse ++ ts, []) := by
        intro next hnext
        refine ih (fun p hp _ hall => ?_) _
        have := h (t :: p) (List.cons_prefix_cons.2 ⟨rfl, hp⟩) (by simp) (by simpa using hall)
        rw [height_cons] at this
        omega
      have happend : (t :: done).reverse ++ ts = done.reverse ++ t :: ts := by simp
      rw [happend] at hrest
      unfold splitRoot
      cases t with
      | opening name attributes => exact hrest _ (by simp [Token.rise])
      | closing name =>
        simp only [Token.rise] at hfirst
        have hdeep : ¬ depth ≤ 1 := by omega
        simp only [if_neg hdeep]
        exact hrest _ (by simp only [Token.rise]; omega)
      | single name attributes =>
        simp only [Token.rise] at hfirst
        have hdeep : ¬ depth = 0 := by omega
        simp only [if_neg hdeep]
        exact hrest _ (by simp [Token.rise])
      | data ps => exact hrest _ (by simp [Token.rise])
      | cdata text => exact hrest _ (by simp [Token.rise])

/-- Tokens that stay open until their end are all those of the first element. -/
theorem IsArch.splitRoot_eq {ts : List Token} (h : IsArch ts) : splitRoot 0 [] ts = (ts, []) :=
  splitRoot_of_pos (fun p hp hnil hall => by
    have := h.pos p hp hnil hall
    omega) []

/-- The tokens up to the end of the root element are the first ones. -/
theorem splitRoot_prefix (depth : Nat) (done ts : List Token) :
    (splitRoot depth done ts).1 <+: done.reverse ++ ts := by
  induction ts generalizing depth done with
  | nil => simp [splitRoot]
  | cons t ts ih =>
    have happend : (t :: done).reverse ++ ts = done.reverse ++ t :: ts := by simp
    have hnext : ∀ next, (splitRoot next (t :: done) ts).1 <+: done.reverse ++ t :: ts := by
      intro next
      rw [← happend]
      exact ih next (t :: done)
    have hend : (t :: done).reverse <+: done.reverse ++ t :: ts := by
      rw [← happend]
      exact List.prefix_append _ _
    unfold splitRoot
    split
    · exact hnext _
    · split
      · exact hend
      · exact hnext _
    · split
      · exact hend
      · exact hnext _
    · exact hnext _

theorem divideRoot_eq_ok_iff {ts : List Token} {r : List Token × List Token} :
    divideRoot ts = .ok r ↔ ts.head?.any Token.beginsElement = true ∧ splitRoot 0 [] ts = r := by
  cases ts with
  | nil => simp [divideRoot]
  | cons t ts =>
    rw [divideRoot]
    split
    · rename_i ht
      simp [ht]
    · rename_i ht
      simp [ht]

/-! What is built from an element that is cut off. -/

/-- By how much an event changes the number of open elements. -/
def Event.rise : Event → Int
  | .char _ => 0
  | .start _ _ => 1
  | .finish _ => -1

/-- Whether an event ends an element. -/
def Event.isFinish : Event → Bool
  | .finish _ => true
  | _ => false

/-- Whether an event is a character. -/
def Event.isChar : Event → Bool
  | .char _ => true
  | _ => false

theorem rise_of_isChar {es : List Event} (h : ∀ e ∈ es, e.isChar = true) :
    (es.map Event.rise).sum = 0 ∧ es.any Event.isFinish = false := by
  induction es with
  | nil => exact ⟨rfl, rfl⟩
  | cons e es ih =>
    obtain ⟨hsum, hfinish⟩ := ih fun f hf => h f (List.mem_cons_of_mem e hf)
    have he := h e List.mem_cons_self
    cases e with
    | char c => exact ⟨by simpa [Event.rise] using hsum, by simpa [Event.isFinish] using hfinish⟩
    | start q attributes => cases he
    | finish name => cases he

/-- The expansion of an entity where nothing may be expanded. -/
def noExpansion (_ : List Char) : Except Malformed (List Event) :=
  .error .recursiveEntity

theorem isChar_of_eventsOfPiece {d : Dtd} {p : Piece} {es : List Event}
    (h : eventsOfPiece d noExpansion p = .ok es) : ∀ e ∈ es, e.isChar = true := by
  unfold eventsOfPiece at h
  split at h
  · cases h
    simp [Event.isChar]
  · cases h
    simp [Event.isChar]
  · split at h
    · cases h
      simp [Event.isChar]
    · split at h
      · cases h
      · cases h
      · cases h

/-- The events of a token rise as the token does, and text ends no element. -/
theorem rise_eventsOfToken {d : Dtd} {t : Token} {es : List Event}
    (h : eventsOfToken d noExpansion t = .ok es) :
    (es.map Event.rise).sum = t.rise ∧ (t.isData = true → es.any Event.isFinish = false) := by
  cases t with
  | data ps =>
    obtain ⟨parts, hparts, rfl⟩ := map_eq_ok_iff.1 h
    have hchar : ∀ e ∈ parts.flatten, e.isChar = true := by
      intro e he
      obtain ⟨part, hpart, he⟩ := List.mem_flatten.1 he
      obtain ⟨p, -, hp⟩ := exists_of_mem_of_mapM_eq_ok hparts part hpart
      exact isChar_of_eventsOfPiece hp e he
    exact ⟨(rise_of_isChar hchar).1, fun _ => (rise_of_isChar hchar).2⟩
  | cdata text =>
    cases h
    have hchar : ∀ e ∈ text.map Event.char, e.isChar = true := by simp [Event.isChar]
    exact ⟨(rise_of_isChar hchar).1, fun hno => by cases hno⟩
  | opening name raw =>
    obtain ⟨attributes, -, rfl⟩ := map_eq_ok_iff.1 h
    exact ⟨rfl, fun hno => by cases hno⟩
  | single name raw =>
    obtain ⟨attributes, -, rfl⟩ := map_eq_ok_iff.1 h
    exact ⟨rfl, fun hno => by cases hno⟩
  | closing name =>
    cases h
    exact ⟨rfl, fun hno => by cases hno⟩

theorem rise_eventsOfTokens {d : Dtd} {ts : List Token} {es : List Event}
    (h : eventsOfTokens d 0 ts = .ok es) :
    (es.map Event.rise).sum = height ts ∧
      ((∀ t ∈ ts, t.isData = true) → es.any Event.isFinish = false) := by
  induction ts generalizing es with
  | nil =>
    cases h
    exact ⟨rfl, fun _ => rfl⟩
  | cons t ts ih =>
    obtain ⟨parts, hparts, rfl⟩ := map_eq_ok_iff.1 h
    rw [List.mapM_cons] at hparts
    obtain ⟨first, hfirst, hparts⟩ := bind_eq_ok_iff.1 hparts
    obtain ⟨others, hothers, hparts⟩ := bind_eq_ok_iff.1 hparts
    cases hparts
    obtain ⟨hsum, hfinish⟩ := rise_eventsOfToken hfirst
    obtain ⟨hsums, hfinishes⟩ := ih (map_eq_ok_iff.2 ⟨others, hothers, rfl⟩)
    constructor
    · rw [List.flatten_cons, List.map_append, List.sum_append, hsum, hsums, height_cons]
    · intro hdata
      rw [List.flatten_cons, List.any_append, hfinish (hdata t List.mem_cons_self),
        hfinishes fun u hu => hdata u (List.mem_cons_of_mem t hu)]
      rfl

namespace Builder

/-- What one event does to the open elements and to the root. -/
theorem height_accept {b b' : Builder} {e : Event} (h : b.accept e = .ok b') :
    (b'.stack.length : Int) = b.stack.length + e.rise ∧
      (b'.root.isSome = true → b.root.isSome = true ∨ e.isFinish = true) := by
  obtain ⟨stack, root⟩ := b
  cases e with
  | char c =>
    cases stack with
    | nil => cases h
    | cons o rest =>
      simp only [accept, Except.ok.injEq] at h
      subst h
      split <;> simp [Event.rise, Event.isFinish]
  | start q attributes =>
    simp only [accept] at h
    split at h
    · cases h
    · obtain ⟨o, -, rfl⟩ := map_eq_ok_iff.1 h
      simp [Event.rise, Event.isFinish]
  | finish name =>
    cases stack with
    | nil => cases h
    | cons o rest =>
      simp only [accept] at h
      split at h
      · cases rest with
        | nil =>
          cases h
          simp [Event.rise, Event.isFinish]
        | cons p outer =>
          cases h
          refine ⟨?_, .inl⟩
          simp only [List.length_cons, Event.rise]
          omega
      · cases h

theorem height_foldlM {es : List Event} {b b' : Builder} (h : es.foldlM accept b = .ok b') :
    (b'.stack.length : Int) = b.stack.length + (es.map Event.rise).sum ∧
      (b'.root.isSome = true → b.root.isSome = true ∨ es.any Event.isFinish = true) := by
  induction es generalizing b with
  | nil =>
    cases h
    simp
  | cons e es ih =>
    rw [List.foldlM_cons] at h
    obtain ⟨next, hnext, h⟩ := bind_eq_ok_iff.1 h
    obtain ⟨hlength, hroot⟩ := height_accept hnext
    obtain ⟨hlengths, hroots⟩ := ih h
    constructor
    · rw [hlengths, hlength, List.map_cons, List.sum_cons]
      omega
    · intro hsome
      rw [List.any_cons, Bool.or_eq_true]
      rcases hroots hsome with hsome | hfinish
      · rcases hroot hsome with hsome | hfinish
        · exact .inl hsome
        · exact .inr (.inl hfinish)
      · exact .inr (.inr hfinish)

end Builder

/-- Events make an element only if they end what they begin, and at least one element. -/
theorem balanced_of_ofEvents {es : List Event} {e : Element} (h : Element.ofEvents es = .ok e) :
    (es.map Event.rise).sum = 0 ∧ es.any Event.isFinish = true := by
  obtain ⟨b, hb, h⟩ := bind_eq_ok_iff.1 h
  obtain ⟨hlength, hroot⟩ := Builder.height_foldlM hb
  obtain ⟨stack, root⟩ := b
  cases stack with
  | cons o rest => cases h
  | nil =>
    cases root with
    | none => cases h
    | some root =>
      constructor
      · simpa [Builder.empty] using hlength.symm
      · simpa [Builder.empty] using hroot rfl

/-- What is left of the tokens of an element that is cut off makes no element. -/
theorem ofEvents_ne_ok_of_isPrefix {d : Dtd} (hd : d.IsBare) (length : Nat) {e x : Element}
    {before extra : List Token} (hbefore : before <+: e.tokens) (hne : before ≠ e.tokens)
    (hextra : ∀ t ∈ extra, t.isData = true) :
    (Event.ofTokens d length (before ++ extra)).bind Element.ofEvents ≠ .ok x := by
  intro h
  rw [ofTokens_of_isBare hd] at h
  obtain ⟨es, hes, h⟩ := bind_eq_ok_iff.1 h
  obtain ⟨hsum, hfinish⟩ := rise_eventsOfTokens hes
  obtain ⟨hzero, hsome⟩ := balanced_of_ofEvents h
  rw [height_append, height_of_isData hextra, hzero] at hsum
  by_cases hnil : before = []
  · rw [hnil, List.nil_append] at hfinish
    rw [hfinish hextra] at hsome
    cases hsome
  · have := (Element.isArch_tokens e).pos before hbefore hnil hne
    omega

end LicenseDepot.Markup
