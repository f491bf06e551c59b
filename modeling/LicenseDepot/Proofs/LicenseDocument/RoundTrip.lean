import LicenseDepot.LicenseDocument.Reader
import LicenseDepot.LicenseDocument.Writer
import LicenseDepot.Proofs.LicenseId.Canonical
import LicenseDepot.Proofs.Markup.WrittenDocument
import LicenseDepot.Proofs.Numeral.Integer
import LicenseDepot.Proofs.Timestamp.Iso

/-!
# Reading back written terms

Terms can be written exactly if their texts keep to the characters of their places and the number of
users has a numeral (`write_eq_ok_iff`). What is read back are the same terms, with the expiry date
that is read for theirs (`ofElement_termsElement`), and that is so for any element that differs from
the written one in layout only (`ofElement_of_resembles`).
-/

namespace LicenseDepot

namespace Licensee

theorem put_of_not_mem {name value : String} {entries : List (String × String)}
    (h : name ∉ entries.map Prod.fst) : put name value entries = entries ++ [(name, value)] := by
  induction entries with
  | nil => rfl
  | cons e entries ih =>
    rw [List.map_cons, List.mem_cons, not_or] at h
    rw [put, if_neg (Ne.symm h.1), ih h.2, List.cons_append]

/-- The entries about a licensee describe that licensee. -/
theorem ofList_entries (l : Licensee) : ofList l.entries = l := by
  have key : ∀ (entries : List (String × String)) (m : Licensee),
      ((m.entries ++ entries).map Prod.fst).Nodup →
      (entries.foldl (fun m e => m.insert e.1 e.2) m).entries = m.entries ++ entries := by
    intro entries
    induction entries with
    | nil =>
      intro m _
      simp
    | cons e entries ih =>
      intro m hnodup
      have hfresh : e.1 ∉ m.entries.map Prod.fst := by
        rw [List.map_append, List.map_cons] at hnodup
        intro hmem
        exact List.disjoint_of_nodup_append hnodup hmem List.mem_cons_self
      have hinsert : (m.insert e.1 e.2).entries = m.entries ++ [e] := put_of_not_mem hfresh
      rw [List.foldl_cons, ih (m.insert e.1 e.2) (by rw [hinsert]; simpa using hnodup), hinsert]
      simp
  have hentries : (ofList l.entries).entries = l.entries := key l.entries empty l.nodup
  obtain ⟨entries, nodup⟩ := l
  exact Licensee.mk.injEq .. ▸ hentries

end Licensee

namespace LicenseDocument

open Markup Text Numeral

/-- Whether terms can be written. -/
structure TermsWritable (t : Terms) : Prop where
  name : ∀ e ∈ t.licensee.entries, ∀ c ∈ e.1.toList, isAttributeChar c = true
  value : ∀ e ∈ t.licensee.entries, ∀ c ∈ e.2.toList, isTextChar c = true
  feature : ∀ f ∈ t.features, ∀ c ∈ f.toList, isTextChar c = true
  maxUsers : ∀ n ∈ t.maxUsers, Integer.isWritable n = true

/-- Any expiry date can be written. -/
theorem TermsWritable.withExpiration {t : Terms} (h : TermsWritable t) (e : Option Timestamp) :
    TermsWritable { t with expiration := e } where
  name := h.name
  value := h.value
  feature := h.feature
  maxUsers := h.maxUsers

/-- The element of an entry about the licensee, if its characters allow it. -/
def entryLeaf (entry : String × String) : Element :=
  { leaf "entry" entry.2.toList with attributes := [(.plain "name".toList, entry.1.toList)] }

/-- The element of a feature, if its characters allow it. -/
def featureLeaf (feature : String) : Element :=
  leaf "feature" feature.toList

/-- The element of terms, if their characters allow it. -/
def termsElement (t : Terms) : Element :=
  branch "license" <|
    [leaf "id" t.id.chars, leaf "type" t.type.toText.toList,
      branch "licensee" (t.licensee.entries.map entryLeaf),
      branch "features" (t.features.map featureLeaf)]
    ++ (t.expiration.map fun e => leaf "expirationDate" e.iso).toList
    ++ (t.maxUsers.map fun n => leaf "maxUserCount" (Integer.digits n)).toList

theorem childText?_termsElement (t : Terms) :
    (termsElement t).childText? "id" = some t.id.chars ∧
    (termsElement t).childText? "type" = some t.type.toText.toList ∧
    (termsElement t).childText? "expirationDate" = t.expiration.map Timestamp.iso ∧
    (termsElement t).childText? "maxUserCount" = t.maxUsers.map Integer.digits := by
  obtain ⟨id, type, licensee, features, expiration, maxUsers⟩ := t
  cases expiration with
  | none =>
    cases maxUsers with
    | none => exact ⟨rfl, rfl, rfl, rfl⟩
    | some n => exact ⟨rfl, rfl, rfl, rfl⟩
  | some e =>
    cases maxUsers with
    | none => exact ⟨rfl, rfl, rfl, rfl⟩
    | some n => exact ⟨rfl, rfl, rfl, rfl⟩

theorem entriesOf_termsElement (t : Terms) : entriesOf (termsElement t) = t.licensee.entries := by
  have hchild : (termsElement t).childrenNamed "licensee"
      = [branch "licensee" (t.licensee.entries.map entryLeaf)] := by
    obtain ⟨id, type, licensee, features, expiration, maxUsers⟩ := t
    cases expiration with
    | none => cases maxUsers <;> rfl
    | some e => cases maxUsers <;> rfl
  have hentries : (branch "licensee" (t.licensee.entries.map entryLeaf)).childrenNamed "entry"
      = t.licensee.entries.map entryLeaf := by
    rw [Element.childrenNamed, branch, List.filter_eq_self]
    intro e he
    obtain ⟨entry, -, rfl⟩ := List.mem_map.1 he
    rfl
  have hentry : entryOf ∘ entryLeaf = id := by
    funext entry
    exact Prod.ext String.ofList_toList String.ofList_toList
  rw [entriesOf, hchild, List.flatMap_singleton, hentries, List.map_map, hentry, List.map_id]

theorem featuresOf_termsElement (t : Terms) : featuresOf (termsElement t) = t.features := by
  have hchild : (termsElement t).childrenNamed "features"
      = [branch "features" (t.features.map featureLeaf)] := by
    obtain ⟨id, type, licensee, features, expiration, maxUsers⟩ := t
    cases expiration with
    | none => cases maxUsers <;> rfl
    | some e => cases maxUsers <;> rfl
  have hfeatures : (branch "features" (t.features.map featureLeaf)).childrenNamed "feature"
      = t.features.map featureLeaf := by
    rw [Element.childrenNamed, branch, List.filter_eq_self]
    intro e he
    obtain ⟨feature, -, rfl⟩ := List.mem_map.1 he
    rfl
  have hfeature : (fun e : Element => String.ofList e.text) ∘ featureLeaf = id := by
    funext feature
    exact String.ofList_toList
  rw [featuresOf, hchild, List.flatMap_singleton, hfeatures, List.map_map, hfeature, List.map_id]

theorem trim_eq_self {s : List Char} (h : ∀ c ∈ s, isBlank c = false) : trim s = s :=
  LicenseId.dropWhile_both_eq_self h

theorem readType_toText (type : LicenseType) : readType type.toText.toList = .ok type := by
  have htrim : trim type.toText.toList = type.toText.toList := by
    cases type <;> decide
  rw [readType, htrim, String.ofList_toList]
  simp only [LicenseType.ofText?_toText]

/-- Whether a character is visible and of ASCII. -/
def IsVisible (c : Char) : Prop :=
  0x21 ≤ c.toNat ∧ c.toNat ≤ 0x7E

instance : DecidablePred IsVisible := fun _ => inferInstanceAs (Decidable (_ ∧ _))

theorem IsVisible.isBlank {c : Char} (h : IsVisible c) : isBlank c = false := by
  have hranges : ∀ r ∈ blankRanges, r.2 < 0x21 ∨ 0x7E < r.1 := by decide
  rw [Bool.eq_false_iff]
  intro hblank
  obtain ⟨r, hr, hlow, hhigh⟩ := isBlank_iff.1 hblank
  have := h.1
  have := h.2
  rcases hranges r hr with hr | hr
  · omega
  · omega

theorem IsVisible.isKept {c : Char} (h : IsVisible c) : IsKept c := by
  have hlow := h.1
  have hhigh := h.2
  constructor
  · have hno : ¬ c.toNat < 0x20 := by omega
    have hne : c.toNat ≠ 0xFFFE ∧ c.toNat ≠ 0xFFFF := by omega
    simp [isXmlChar, hno, hne]
  · rintro rfl
    exact absurd hlow (by decide)

theorem isVisible_of_isDigit {c : Char} (h : c.isDigit = true) : IsVisible c := by
  rw [Char.isDigit, Bool.and_eq_true, decide_eq_true_eq, decide_eq_true_eq] at h
  have hlow : 48 ≤ c.toNat := h.1
  have hhigh : c.toNat ≤ 57 := h.2
  exact ⟨by omega, by omega⟩

theorem isVisible_of_mem_iso {t : Timestamp} : ∀ c ∈ t.iso, IsVisible c := by
  intro c hc
  have h := Timestamp.isIsoChar_of_mem_iso hc
  simp only [Timestamp.isIsoChar, Bool.or_eq_true, beq_iff_eq] at h
  rcases h with ((((h | rfl) | rfl) | rfl) | rfl) | rfl
  · exact isVisible_of_isDigit h
  · decide
  · decide
  · decide
  · decide
  · decide

theorem isVisible_of_mem_chars {id : LicenseId} : ∀ c ∈ id.chars, IsVisible c := by
  have hdigit : ∀ k, k < 16 → IsVisible (hexDigit k) := by decide
  intro c hc
  rcases LicenseId.mem_chars hc with rfl | ⟨k, hk, rfl⟩
  · decide
  · exact hdigit k hk

theorem isVisible_of_mem_digits {n : Int} : ∀ c ∈ Integer.digits n, IsVisible c := by
  have hdigit : ∀ c ∈ Nat.toDigits 10 n.natAbs, IsVisible c := fun c hc =>
    isVisible_of_isDigit (Nat.isDigit_of_mem_toDigits (by decide) (by decide) hc)
  intro c hc
  unfold Integer.digits at hc
  split at hc
  · rcases List.mem_cons.1 hc with rfl | hc
    · decide
    · exact hdigit c hc
  · exact hdigit c hc

theorem digits_ne_nil (n : Int) : Integer.digits n ≠ [] := by
  unfold Integer.digits
  split
  · exact List.cons_ne_nil _ _
  · exact Nat.toDigits_ne_nil

/-- The terms that are read where terms have been written. -/
def termsAsRead (t : Terms) : Terms :=
  { t with expiration := t.expiration.map Timestamp.asRead }

/-! What is read where terms have been written, with or without layout. -/

/-- A text with runs of blanks at its ends. -/
def Padded (s padded : List Char) : Prop :=
  ∃ before after, IsRun before ∧ IsRun after ∧ padded = before ++ (s ++ after)

theorem padded_refl (s : List Char) : Padded s s :=
  ⟨[], [], isRun_nil, isRun_nil, by simp⟩

/-- What may stand for an element of a document that has layout: it has the same children, and if
there are none, the same text between runs of blanks. -/
structure Resembles (e d : Element) : Prop where
  name : d.name = e.name
  children : d.children = e.children
  text : e.children = [] → Padded e.text d.text

theorem resembles_refl (e : Element) : Resembles e e :=
  ⟨rfl, rfl, fun _ => padded_refl e.text⟩

/-- Runs of blanks at the ends are trimmed with whatever else is blank there. -/
theorem trim_of_padded {s padded : List Char} (h : Padded s padded) : trim padded = trim s := by
  obtain ⟨before, after, hbefore, hafter, rfl⟩ := h
  have hblankBefore : ∀ c ∈ before, isBlank c = true := hbefore.forall_mem (by decide)
  have hblankAfter : ∀ c ∈ after, isBlank c = true := hafter.forall_mem (by decide)
  have hstart : trimStart (before ++ (s ++ after)) = trimStart (s ++ after) :=
    List.dropWhile_append_of_pos hblankBefore
  have hend : ∀ u, trimEnd (u ++ after) = trimEnd u := by
    intro u
    have hrun : ∀ c ∈ after.reverse, isBlank c = true := by simpa using hblankAfter
    rw [trimEnd, trimEnd, List.reverse_append, trimStart, trimStart,
      List.dropWhile_append_of_pos hrun]
  rw [trim, hstart, trim]
  by_cases hblank : trimStart s = []
  · -- Nothing is left of a text that is all blank, and then nothing is left of the run either.
    have hrest : trimStart (s ++ after) = [] := by
      apply List.dropWhile_eq_nil_iff.2
      exact List.forall_mem_append.2 ⟨List.dropWhile_eq_nil_iff.1 hblank, hblankAfter⟩
    rw [hrest, hblank]
  · have hrest : trimStart (s ++ after) = trimStart s ++ after := by
      rw [trimStart, List.dropWhile_append, if_neg]
      · rfl
      · exact fun hempty => hblank (List.isEmpty_iff.1 hempty)
    rw [hrest, hend]

theorem forall₂_childrenNamed {e d : Element}
    (h : List.Forall₂ Resembles e.children d.children) (name : String) :
    List.Forall₂ Resembles (e.childrenNamed name) (d.childrenNamed name) := by
  refine List.rel_filter (fun c c' hresembles => ?_) h
  show (c.name == .plain name.toList) = true ↔ (c'.name == .plain name.toList) = true
  rw [hresembles.name]

section Resembling

variable {cs ds : List Element}

theorem flatMap_childrenNamed (h : List.Forall₂ Resembles cs ds) (name : String) :
    ds.flatMap (·.childrenNamed name) = cs.flatMap (·.childrenNamed name) := by
  induction h with
  | nil => rfl
  | @cons c d cs ds hresembles _ ih =>
    have hchildren : d.childrenNamed name = c.childrenNamed name := by
      rw [Element.childrenNamed, Element.childrenNamed, hresembles.children]
    rw [List.flatMap_cons, List.flatMap_cons, ih, hchildren]

theorem rel_head? (h : List.Forall₂ Resembles cs ds) (hleaf : ∀ c ∈ cs, c.children = []) :
    Option.Rel Padded (cs.head?.map Element.text) (ds.head?.map Element.text) := by
  cases h with
  | nil => exact .none
  | cons hresembles _ => exact .some (hresembles.text (hleaf _ List.mem_cons_self))

end Resembling

theorem exists_of_rel_some {s : List Char} {o : Option (List Char)}
    (h : Option.Rel Padded (some s) o) : ∃ padded, o = some padded ∧ Padded s padded := by
  cases h with
  | some hpadded => exact ⟨_, rfl, hpadded⟩

theorem readOptional_of_padded {α β : Type} {write : α → List Char} {o : Option α}
    {text : Option (List Char)} (hne : ∀ a, write a ≠ [])
    (h : Option.Rel Padded (o.map write) text) {f : List Char → Except FieldFault β} {g : α → β}
    (hread : ∀ a ∈ o, ∀ s, Padded (write a) s → f s = .ok (g a)) :
    readOptional text f = .ok (o.map g) := by
  cases o with
  | none =>
    cases h
    rfl
  | some a =>
    obtain ⟨s, rfl, hs⟩ := exists_of_rel_some h
    have hnil : s ≠ [] := by
      obtain ⟨before, after, -, -, rfl⟩ := hs
      simp [hne a]
    rw [readOptional, hread a rfl s hs]
    · rfl
    · exact hnil

/-- The fields that are read from the text of a child of their own. -/
def textFields : List String :=
  ["id", "type", "expirationDate", "maxUserCount"]

theorem children_of_mem_childrenNamed (t : Terms) {name : String} (hname : name ∈ textFields) :
    ∀ c ∈ (termsElement t).childrenNamed name, c.children = [] := by
  have hbranch : ∀ n ∈ textFields, ExpandedName.plain "licensee".toList ≠ .plain n.toList ∧
      ExpandedName.plain "features".toList ≠ .plain n.toList := by
    decide
  intro c hc
  obtain ⟨hc, hnamed⟩ := List.mem_filter.1 hc
  rw [beq_iff_eq] at hnamed
  simp only [termsElement, branch, List.mem_append, List.mem_cons, List.not_mem_nil, or_false,
    Option.mem_toList, Option.map_eq_some_iff] at hc
  rcases hc with ((rfl | rfl | rfl | rfl) | ⟨e, -, rfl⟩) | ⟨n, -, rfl⟩
  · rfl
  · rfl
  · exact absurd hnamed (hbranch name hname).1
  · exact absurd hnamed (hbranch name hname).2
  · rfl
  · rfl

/-- Terms are read back from an element whose children resemble the written ones, the expiry date as
far as its ISO form holds it. -/
theorem ofElement_of_resembles {t : Terms} (h : TermsWritable t) {root : Element}
    (hroot : root.name = .plain "license".toList)
    (hchildren : List.Forall₂ Resembles (termsElement t).children root.children) :
    ofElement root = .ok (termsAsRead t) := by
  obtain ⟨hid, htype, hexpiration, hmaxUsers⟩ := childText?_termsElement t
  have hnamed := forall₂_childrenNamed hchildren
  have hfield : ∀ name ∈ textFields,
      Option.Rel Padded ((termsElement t).childText? name) (root.childText? name) :=
    fun name hname => rel_head? (hnamed name) (children_of_mem_childrenNamed t hname)
  obtain ⟨idText, hid', hidText⟩ := exists_of_rel_some (hid ▸ hfield "id" (by decide))
  obtain ⟨typeText, htype', htypeText⟩ := exists_of_rel_some (htype ▸ hfield "type" (by decide))
  have hreadId : LicenseId.read idText = .ok t.id := by
    rw [LicenseId.read, LicenseId.bare, trim_of_padded hidText]
    exact LicenseId.read_chars t.id
  have hreadType : readType typeText = .ok t.type := by
    rw [readType, trim_of_padded htypeText]
    exact readType_toText t.type
  have htimestamp : readOptional (root.childText? "expirationDate") (fun s =>
      (Timestamp.read (trim s)).mapError .expiration)
        = .ok (t.expiration.map Timestamp.asRead) := by
    apply readOptional_of_padded Timestamp.iso_ne_nil (hexpiration ▸ hfield _ (by decide))
    intro e _ s hs
    rw [trim_of_padded hs, trim_eq_self fun c hc => (isVisible_of_mem_iso c hc).isBlank,
      Timestamp.read_iso]
    rfl
  have hnumber : readOptional (root.childText? "maxUserCount") (fun s =>
      (Integer.read 10 s).mapError .maxUsers) = .ok (t.maxUsers.map id) := by
    apply readOptional_of_padded digits_ne_nil (hmaxUsers ▸ hfield _ (by decide))
    rintro n hn s ⟨before, after, hbefore, hafter, rfl⟩
    rw [Integer.read_digits_of_blanks (h.maxUsers n hn) (hbefore.forall_mem (by decide))
      (hafter.forall_mem (by decide))]
    rfl
  have hentries : entriesOf root = t.licensee.entries := by
    rw [entriesOf, flatMap_childrenNamed (hnamed _)]
    exact entriesOf_termsElement t
  have hfeatures : featuresOf root = t.features := by
    rw [featuresOf, flatMap_childrenNamed (hnamed _)]
    exact featuresOf_termsElement t
  rw [ofElement, if_pos hroot, readFields, hid', htype', Option.getD_some, Option.getD_some,
    hreadId, hreadType, htimestamp, hnumber, hentries, hfeatures, Licensee.ofList_entries,
    Option.map_id]
  rfl

/-- Written terms are read back, the expiry date as far as its ISO form holds it. -/
theorem ofElement_termsElement {t : Terms} (h : TermsWritable t) :
    ofElement (termsElement t) = .ok (termsAsRead t) :=
  ofElement_of_resembles h rfl (List.forall₂_same.2 fun e _ => resembles_refl e)

/-! Which terms can be written, and as what. -/

theorem checked_eq_ok_iff {field : Field} {s : String} {r : List Char} :
    checked field s = .ok r ↔ (∀ c ∈ s.toList, field.holds c = true) ∧ r = s.toList := by
  unfold checked
  constructor
  · intro h
    split at h
    · cases h
    · rename_i hnone
      cases h
      exact ⟨by simpa using hnone, rfl⟩
  · rintro ⟨h, rfl⟩
    have hnone : (s.toList.find? fun c => !field.holds c) = none := by simpa using h
    rw [hnone]

theorem entryElement_eq_ok_iff (entry : String × String) (e : Element) :
    entryElement entry = .ok e ↔ ((∀ c ∈ entry.1.toList, isAttributeChar c = true) ∧
      ∀ c ∈ entry.2.toList, isTextChar c = true) ∧ e = entryLeaf entry := by
  unfold entryElement
  constructor
  · intro h
    obtain ⟨name, hname', h⟩ := bind_eq_ok_iff.1 h
    obtain ⟨value, hvalue', h⟩ := bind_eq_ok_iff.1 h
    obtain ⟨hname, rfl⟩ := checked_eq_ok_iff.1 hname'
    obtain ⟨hvalue, rfl⟩ := checked_eq_ok_iff.1 hvalue'
    cases h
    exact ⟨⟨hname, hvalue⟩, rfl⟩
  · rintro ⟨⟨hname, hvalue⟩, rfl⟩
    exact bind_eq_ok_iff.2 ⟨_, checked_eq_ok_iff.2 ⟨hname, rfl⟩,
      bind_eq_ok_iff.2 ⟨_, checked_eq_ok_iff.2 ⟨hvalue, rfl⟩, rfl⟩⟩

theorem featureElement_eq_ok_iff (feature : String) (e : Element) :
    featureElement feature = .ok e ↔
      (∀ c ∈ feature.toList, isTextChar c = true) ∧ e = featureLeaf feature := by
  rw [featureElement, map_eq_ok_iff]
  constructor
  · rintro ⟨text, hchecked, rfl⟩
    obtain ⟨htext, rfl⟩ := checked_eq_ok_iff.1 hchecked
    exact ⟨htext, rfl⟩
  · rintro ⟨htext, rfl⟩
    exact ⟨_, checked_eq_ok_iff.2 ⟨htext, rfl⟩, rfl⟩

theorem mapM_maxUsersText_eq_ok_iff {maxUsers : Option Int} {r : Option (List Char)} :
    maxUsers.mapM maxUsersText = .ok r ↔
      (∀ n ∈ maxUsers, Integer.isWritable n = true) ∧ r = maxUsers.map Integer.digits := by
  cases maxUsers with
  | none =>
    constructor
    · intro h
      cases h
      simp
    · rintro ⟨-, rfl⟩
      rfl
  | some n =>
    rw [Option.mapM_some]
    constructor
    · intro h
      obtain ⟨text, htext, rfl⟩ := map_eq_ok_iff.1 h
      unfold maxUsersText at htext
      split at htext
      · rename_i hn
        cases htext
        exact ⟨by simpa using hn, rfl⟩
      · cases htext
    · rintro ⟨hn, rfl⟩
      exact map_eq_ok_iff.2 ⟨_, by rw [maxUsersText, if_pos (hn n rfl)], rfl⟩

theorem toElement_eq_ok_iff {t : Terms} {e : Element} :
    toElement t = .ok e ↔ TermsWritable t ∧ e = termsElement t := by
  have hentries := @mapM_eq_ok_iff _ _ _ _ _ _ entryElement_eq_ok_iff t.licensee.entries
  have hfeatures := @mapM_eq_ok_iff _ _ _ _ _ _ featureElement_eq_ok_iff t.features
  unfold toElement
  constructor
  · intro h
    obtain ⟨entries, he, h⟩ := bind_eq_ok_iff.1 h
    obtain ⟨features, hf, h⟩ := bind_eq_ok_iff.1 h
    obtain ⟨maxUsers, hm, h⟩ := bind_eq_ok_iff.1 h
    obtain ⟨hentry, rfl⟩ := hentries.1 he
    obtain ⟨hfeature, rfl⟩ := hfeatures.1 hf
    obtain ⟨hmaxUsers, rfl⟩ := mapM_maxUsersText_eq_ok_iff.1 hm
    cases h
    refine ⟨⟨fun e h => (hentry e h).1, fun e h => (hentry e h).2, hfeature, hmaxUsers⟩, ?_⟩
    rw [Option.map_map]
    rfl
  · rintro ⟨h, rfl⟩
    refine bind_eq_ok_iff.2 ⟨_, hentries.2 ⟨fun e he => ⟨h.name e he, h.value e he⟩, rfl⟩,
      bind_eq_ok_iff.2 ⟨_, hfeatures.2 ⟨h.feature, rfl⟩,
        bind_eq_ok_iff.2 ⟨_, mapM_maxUsersText_eq_ok_iff.2 ⟨h.maxUsers, rfl⟩, ?_⟩⟩⟩
    rw [Option.map_map]
    rfl

/-- Which terms can be written, and what is written for them. -/
theorem write_eq_ok_iff {t : Terms} {s : List Char} :
    write t = .ok s ↔ TermsWritable t ∧ s = declaration ++ (termsElement t).render := by
  rw [write, map_eq_ok_iff]
  constructor
  · rintro ⟨e, he, rfl⟩
    obtain ⟨h, rfl⟩ := toElement_eq_ok_iff.1 he
    exact ⟨h, rfl⟩
  · rintro ⟨h, rfl⟩
    exact ⟨_, toElement_eq_ok_iff.2 ⟨h, rfl⟩, rfl⟩

/-! What is written can be read back. -/

theorem isXmlChar_of_isAttributeChar {c : Char} (h : isAttributeChar c = true) :
    isXmlChar c = true := by
  simp only [isAttributeChar, Bool.and_eq_true, decide_eq_true_eq] at h
  have hlow : ¬ c.toNat < 0x20 := by omega
  simp only [isXmlChar, hlow, if_false, Bool.and_eq_true]
  exact ⟨h.1.2, h.2⟩

theorem isKept_of_isTextChar {c : Char} (h : isTextChar c = true) : IsKept c := by
  simp only [isTextChar, Bool.or_eq_true, beq_iff_eq] at h
  rcases h with (h | rfl) | rfl
  · refine ⟨isXmlChar_of_isAttributeChar h, ?_⟩
    rintro rfl
    exact absurd h (by decide)
  · decide
  · decide

theorem attributesWritable_nil : AttributesWritable [] :=
  ⟨by simp, by simp, by simp, by simp, by simp⟩

theorem isWritable_leaf {name : String} (hname : isName name.toList = true) {text : List Char}
    (htext : ∀ c ∈ text, IsKept c) : (leaf name text).IsWritable :=
  .intro ⟨rfl, hname, attributesWritable_nil, htext⟩ (by simp [leaf])

theorem isWritable_branch {name : String} (hname : isName name.toList = true)
    {children : List Element} (hchildren : ∀ c ∈ children, c.IsWritable) :
    (branch name children).IsWritable :=
  .intro ⟨rfl, hname, attributesWritable_nil, by simp [branch]⟩ hchildren

theorem isWritable_entryLeaf {entry : String × String}
    (hname : ∀ c ∈ entry.1.toList, isAttributeChar c = true)
    (hvalue : ∀ c ∈ entry.2.toList, isTextChar c = true) : (entryLeaf entry).IsWritable := by
  have hattributes : AttributesWritable (entryLeaf entry).attributes := by
    have hkey : isName "name".toList = true ∧ "name".toList ≠ Scope.binder := by decide
    refine ⟨?_, ?_, ?_, List.nodup_singleton _, ?_⟩
    · intro a ha
      rw [List.mem_singleton.1 ha]
      rfl
    · intro a ha
      rw [List.mem_singleton.1 ha]
      exact hkey.1
    · intro a ha
      rw [List.mem_singleton.1 ha]
      exact hkey.2
    · intro a ha c hc
      rw [List.mem_singleton.1 ha] at hc
      exact isXmlChar_of_isAttributeChar (hname c hc)
  have htag : isName "entry".toList = true := by decide
  exact .intro ⟨rfl, htag, hattributes, fun c hc => isKept_of_isTextChar (hvalue c hc)⟩
    (by simp [entryLeaf, leaf])

/-- The element of writable terms can be read back. -/
theorem isWritable_termsElement {t : Terms} (h : TermsWritable t) :
    (termsElement t).IsWritable := by
  apply isWritable_branch (by decide)
  intro c hc
  simp only [List.mem_append, List.mem_cons, List.not_mem_nil, or_false, Option.mem_toList,
    Option.map_eq_some_iff] at hc
  rcases hc with ((rfl | rfl | rfl | rfl) | ⟨e, -, rfl⟩) | ⟨n, -, rfl⟩
  · exact isWritable_leaf (by decide) fun c hc => (isVisible_of_mem_chars c hc).isKept
  · apply isWritable_leaf (by decide)
    cases t.type <;> exact forall_mem_of_all (by decide)
  · apply isWritable_branch (by decide)
    intro c hc
    obtain ⟨entry, hentry, rfl⟩ := List.mem_map.1 hc
    exact isWritable_entryLeaf (h.name entry hentry) (h.value entry hentry)
  · apply isWritable_branch (by decide)
    intro c hc
    obtain ⟨feature, hfeature, rfl⟩ := List.mem_map.1 hc
    exact isWritable_leaf (by decide) fun c hc =>
      isKept_of_isTextChar (h.feature feature hfeature c hc)
  · exact isWritable_leaf (by decide) fun c hc => (isVisible_of_mem_iso c hc).isKept
  · exact isWritable_leaf (by decide) fun c hc => (isVisible_of_mem_digits c hc).isKept

end LicenseDocument

end LicenseDepot
