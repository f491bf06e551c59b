import LicenseDepot.Proofs.LicenseDocument.Refusal
import LicenseDepot.Proofs.Markup.LegalDocument

/-!
# What a document can state

The texts of terms that have been read are made of characters that a document may hold, and the
number of users has a numeral (`termsLegal_of_ofElement`). Of such terms, all can be written but
those with a character that would be changed in reading (`TermsLegal.termsWritable_iff`), and no
other fault is found in them (`TermsLegal.exists_of_write_eq_error`).
-/

namespace LicenseDepot

open Text

namespace Licensee

variable {e : String × String} {entries : List (String × String)}

theorem mem_put {name value : String} (h : e ∈ put name value entries) :
    e = (name, value) ∨ e ∈ entries := by
  induction entries with
  | nil => exact .inl (List.mem_singleton.1 h)
  | cons d entries ih =>
    rw [put] at h
    split at h
    · rcases List.mem_cons.1 h with heq | hmem
      · exact .inl heq
      · exact .inr (List.mem_cons_of_mem d hmem)
    · rcases List.mem_cons.1 h with heq | hmem
      · exact .inr (List.mem_cons.2 (.inl heq))
      · exact (ih hmem).imp_right (List.mem_cons_of_mem d)

/-- A licensee has none but the entries that describe it. -/
theorem mem_ofList (h : e ∈ (ofList entries).entries) : e ∈ entries := by
  have key : ∀ (entries : List (String × String)) (l : Licensee),
      e ∈ (entries.foldl (fun l d => l.insert d.1 d.2) l).entries →
        e ∈ l.entries ∨ e ∈ entries := by
    intro entries
    induction entries with
    | nil => exact fun l h => .inl h
    | cons d entries ih =>
      intro l h
      rcases ih _ h with hmem | hmem
      · rcases mem_put hmem with heq | hmem
        · exact .inr (List.mem_cons.2 (.inl heq))
        · exact .inl hmem
      · exact .inr (List.mem_cons_of_mem d hmem)
  rcases key entries empty h with hmem | hmem
  · cases hmem
  · exact hmem

end Licensee

namespace LicenseDocument

open Markup Numeral

variable {t : Terms} {root : Element} {c : Char}

/-! Where the terms of a document come from. -/

theorem exists_of_readOptional {α : Type} {text : Option (List Char)}
    {f : List Char → Except FieldFault α} {o : Option α} (h : readOptional text f = .ok o) :
    ∀ a ∈ o, ∃ s, f s = .ok a := by
  unfold readOptional at h
  split at h
  · cases h
    simp
  · cases h
    simp
  · rename_i s _ _
    obtain ⟨a, ha, rfl⟩ := map_eq_ok_iff.1 h
    intro b hb
    cases hb
    exact ⟨_, ha⟩

/-- What the fields of terms are read from. -/
structure StatedBy (root : Element) (t : Terms) : Prop where
  licensee : t.licensee = .ofList (entriesOf root)
  features : t.features = featuresOf root
  expiration : ∀ e ∈ t.expiration, ∃ s, Timestamp.read s = .ok e
  maxUsers : ∀ n ∈ t.maxUsers, ∃ s, Integer.read 10 s = .ok n

theorem statedBy_of_ofElement (h : ofElement root = .ok t) : StatedBy root t := by
  unfold ofElement at h
  split at h
  · have h := mapError_eq_ok_iff.1 h
    unfold readFields at h
    obtain ⟨id, -, h⟩ := bind_eq_ok_iff.1 h
    obtain ⟨type, -, h⟩ := bind_eq_ok_iff.1 h
    obtain ⟨expiration, hexpiration, h⟩ := bind_eq_ok_iff.1 h
    obtain ⟨maxUsers, hmaxUsers, h⟩ := bind_eq_ok_iff.1 h
    cases h
    refine ⟨rfl, rfl, fun e he => ?_, fun n hn => ?_⟩
    · obtain ⟨s, hs⟩ := exists_of_readOptional hexpiration e he
      exact ⟨trim s, mapError_eq_ok_iff.1 hs⟩
    · obtain ⟨s, hs⟩ := exists_of_readOptional hmaxUsers n hn
      exact ⟨s, mapError_eq_ok_iff.1 hs⟩
  · cases h

/-! Legal terms. -/

/-- Whether the texts of some terms are legal and the number of users has a numeral. -/
structure TermsLegal (t : Terms) : Prop where
  name : ∀ e ∈ t.licensee.entries, IsXmlText e.1.toList
  value : ∀ e ∈ t.licensee.entries, IsXmlText e.2.toList
  feature : ∀ f ∈ t.features, IsXmlText f.toList
  maxUsers : ∀ n ∈ t.maxUsers, Integer.isWritable n = true

theorem isXmlText_entryOf {e : Element} (h : e.IsLegal) :
    IsXmlText (entryOf e).1.toList ∧ IsXmlText (entryOf e).2.toList := by
  rw [entryOf, String.toList_ofList, String.toList_ofList]
  refine ⟨?_, h.text⟩
  cases hname : e.attribute? "name" with
  | none => exact isXmlText_nil
  | some name => exact h.attribute? hname

theorem isLegal_of_mem_flatMap (h : root.IsLegal) {outer inner : String} :
    ∀ e ∈ (root.childrenNamed outer).flatMap (·.childrenNamed inner), e.IsLegal := by
  intro e he
  obtain ⟨branch, hbranch, he⟩ := List.mem_flatMap.1 he
  exact (h.childrenNamed outer branch hbranch).childrenNamed inner e he

/-- The terms that a legal element states are legal. -/
theorem termsLegal_of_ofElement (hroot : root.IsLegal) (h : ofElement root = .ok t) :
    TermsLegal t := by
  obtain ⟨hlicensee, hfeatures, -, hmaxUsers⟩ := statedBy_of_ofElement h
  have hentry : ∀ e ∈ t.licensee.entries, IsXmlText e.1.toList ∧ IsXmlText e.2.toList := by
    intro e he
    rw [hlicensee] at he
    obtain ⟨child, hchild, rfl⟩ := List.mem_map.1 (Licensee.mem_ofList he)
    exact isXmlText_entryOf (isLegal_of_mem_flatMap hroot child hchild)
  refine ⟨fun e he => (hentry e he).1, fun e he => (hentry e he).2, fun f hf => ?_, fun n hn => ?_⟩
  · rw [hfeatures] at hf
    obtain ⟨child, hchild, rfl⟩ := List.mem_map.1 hf
    rw [String.toList_ofList]
    exact (isLegal_of_mem_flatMap hroot child hchild).text
  · obtain ⟨s, hs⟩ := hmaxUsers n hn
    exact Integer.isWritable_of_read hs

/-! Which legal terms can be written. -/

theorem isAttributeChar_iff :
    isAttributeChar c = true ↔ isXmlChar c = true ∧ c ≠ '\t' ∧ c ≠ '\n' ∧ c ≠ '\r' := by
  constructor
  · intro h
    refine ⟨isXmlChar_of_isAttributeChar h, ?_, ?_, ?_⟩
    all_goals
      rintro rfl
      exact absurd h (by decide)
  · rintro ⟨hc, htab, hfeed, hreturn⟩
    have hcode : c.toNat ≠ 9 ∧ c.toNat ≠ 10 ∧ c.toNat ≠ 13 :=
      ⟨fun h => htab (Char.toNat_inj.1 h), fun h => hfeed (Char.toNat_inj.1 h),
        fun h => hreturn (Char.toNat_inj.1 h)⟩
    simp only [isXmlChar] at hc
    split at hc
    · simp only [Bool.or_eq_true, beq_iff_eq] at hc
      omega
    · rename_i hlow
      simp only [Bool.and_eq_true] at hc
      simp only [isAttributeChar, Bool.and_eq_true, decide_eq_true_eq]
      exact ⟨⟨by omega, hc.1⟩, hc.2⟩

/-- Text can hold what a document can hold and a reader leaves as it is. -/
theorem isTextChar_iff : isTextChar c = true ↔ IsKept c := by
  refine ⟨isKept_of_isTextChar, fun ⟨hc, hreturn⟩ => ?_⟩
  simp only [isTextChar, Bool.or_eq_true, beq_iff_eq]
  by_cases htab : c = '\t'
  · exact .inl (.inr htab)
  by_cases hfeed : c = '\n'
  · exact .inr hfeed
  · exact .inl (.inl (isAttributeChar_iff.2 ⟨hc, htab, hfeed, hreturn⟩))

/-- Whether terms hold a character that would be changed in reading: in the name of an entry about
the licensee a tab, a line feed or a carriage return, and in a value or a feature a carriage
return. -/
def HoldsLostChar (t : Terms) : Prop :=
  (∃ e ∈ t.licensee.entries, '\t' ∈ e.1.toList ∨ '\n' ∈ e.1.toList ∨ '\r' ∈ e.1.toList) ∨
    (∃ e ∈ t.licensee.entries, '\r' ∈ e.2.toList) ∨ ∃ f ∈ t.features, '\r' ∈ f.toList

instance : DecidablePred HoldsLostChar := fun _ => inferInstanceAs (Decidable (_ ∨ _ ∨ _))

namespace TermsLegal

/-- Legal terms can be written if none of their characters would be changed in reading. -/
theorem termsWritable_iff (h : TermsLegal t) : TermsWritable t ↔ ¬ HoldsLostChar t := by
  constructor
  · rintro hwritable (⟨e, he, hname⟩ | ⟨e, he, hvalue⟩ | ⟨f, hf, hfeature⟩)
    · have hkept := fun c hc => (isAttributeChar_iff.1 (hwritable.name e he c hc)).2
      rcases hname with htab | hfeed | hreturn
      · exact (hkept '\t' htab).1 rfl
      · exact (hkept '\n' hfeed).2.1 rfl
      · exact (hkept '\r' hreturn).2.2 rfl
    · exact (isTextChar_iff.1 (hwritable.value e he _ hvalue)).2 rfl
    · exact (isTextChar_iff.1 (hwritable.feature f hf _ hfeature)).2 rfl
  · intro hkept
    refine ⟨fun e he c hc => ?_, fun e he c hc => ?_, fun f hf c hc => ?_, h.maxUsers⟩
    · refine isAttributeChar_iff.2 ⟨h.name e he c hc, ?_, ?_, ?_⟩
      · rintro rfl
        exact hkept (.inl ⟨e, he, .inl hc⟩)
      · rintro rfl
        exact hkept (.inl ⟨e, he, .inr (.inl hc)⟩)
      · rintro rfl
        exact hkept (.inl ⟨e, he, .inr (.inr hc)⟩)
    · refine isTextChar_iff.2 ⟨h.value e he c hc, ?_⟩
      rintro rfl
      exact hkept (.inr (.inl ⟨e, he, hc⟩))
    · refine isTextChar_iff.2 ⟨h.feature f hf c hc, ?_⟩
      rintro rfl
      exact hkept (.inr (.inr ⟨f, hf, hc⟩))

/-- The only fault of legal terms is a character that its place cannot hold. -/
theorem exists_of_write_eq_error (h : TermsLegal t) {fault : Fault}
    (hwrite : write t = .error fault) : ∃ field c, fault = .unrepresentable field c := by
  obtain ⟨field, c, -, hfault⟩ := (write_eq_error_iff h.maxUsers).1 hwrite
  exact ⟨field, c, hfault⟩

end TermsLegal

end LicenseDocument

end LicenseDepot
