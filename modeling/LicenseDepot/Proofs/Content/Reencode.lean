import LicenseDepot.Proofs.Content.Reread

/-!
# Writing again what has been read

A document may spell its texts in many ways: with references, with entities, in other encodings. The
licence that it is converted to is written in one way, and that is stable: what is written is
converted to the same licence and written as the same text. It is written at all unless one of its
characters would be changed in reading. Main statement: `document_stable`.
-/

namespace LicenseDepot

open LicenseDocument

namespace Content

variable {s : List Char} {t : Terms} {l : License}

/-- The terms that a text states are legal. -/
theorem termsLegal_of_readTerms (h : readTerms s = .ok t) : TermsLegal t := by
  obtain ⟨root, hread, hroot⟩ := readTerms_eq_ok_iff.1 h
  exact termsLegal_of_ofElement (Markup.isLegal_read hread) hroot

/-- What has been converted from text is plain and can be written again, unless it holds a character
that would be changed in reading; it has no other fault. What is written is converted to the same
licence, its expiry date included, and is what is written for that. -/
theorem document_stable (h : toLicense (.text s) = .ok l) :
    l.kind = .plain ∧
    ((∃ fault, l.document = .error fault) ↔ HoldsLostChar l.terms) ∧
    (∀ fault, l.document = .error fault → fault.typeName = "LicenseEncodeError") ∧
    (¬ HoldsLostChar l.terms → ∃ r m, l.document = .ok r ∧ toLicense (.text r) = .ok m ∧
      m = l ∧ m.same l = true ∧ m.document = .ok r) := by
  obtain ⟨t, ht, rfl⟩ := map_eq_ok_iff.1 h
  have hlegal := termsLegal_of_readTerms ht
  have hself := termsAsRead_of_readTerms ht
  have hwritten : ¬ HoldsLostChar t → ∃ r, write t = .ok r := by
    intro hno
    exact ⟨_, write_eq_ok_iff.2 ⟨hlegal.termsWritable_iff.2 hno, rfl⟩⟩
  refine ⟨rfl, ⟨?_, ?_⟩, ?_, ?_⟩
  · rintro ⟨fault, hfault⟩
    by_contra hno
    obtain ⟨r, hr⟩ := hwritten hno
    rw [show (License.plain t).document = write t from rfl, hr] at hfault
    cases hfault
  · intro hlost
    cases hdocument : (License.plain t).document with
    | error fault => exact ⟨fault, rfl⟩
    | ok r => exact absurd hlost (hlegal.termsWritable_iff.1 (write_eq_ok_iff.1 hdocument).1)
  · intro fault hfault
    obtain ⟨field, c, rfl⟩ := hlegal.exists_of_write_eq_error hfault
    rfl
  · intro hno
    obtain ⟨r, hr⟩ := hwritten hno
    refine ⟨r, .plain t, hr, ?_, rfl, License.same_refl _, hr⟩
    rw [toLicense_write hr, hself]

/-- A document that brings in a carriage return by its number. -/
def returnDocument : List Char :=
  ("<license><id>0123456789abcdef0123456789abcdef</id>"
    ++ "<features><feature>a&#13;</feature></features></license>").toList

/-- A document with an entity and with fields spelled loosely. -/
def looseDocument : List Char :=
  ("<!DOCTYPE license[<!ENTITY e 'x&#10;'>]><license><id> 0123456789ABCDEF0123456789ABCDEF</id>"
    ++ "<licensee><entry name='a\tb'>&e;</entry></licensee>"
    ++ "<expirationDate>20240229T235959-05</expirationDate></license>").toList

/-- The terms that `looseDocument` states. They expire in the second in which `awkwardTerms` do, by
the clocks of two places. -/
def looseTerms : Terms where
  id := ⟨0x0123456789abcdef0123456789abcdef⟩
  licensee := ⟨[("a b", "x\n")], by decide⟩
  expiration := awkwardTerms.expiration.map fun t =>
    { t with
      clock := { t.clock with microsecond := 0, microsecond_valid := by decide }
      zone := some (.fixed ⟨-18000000000, by decide⟩) }

/-- The first document is read and not written again; the second one is written in another way,
which is stable. -/
theorem document_stable_looseDocument :
    (∃ t fault, toLicense (.text returnDocument) = .ok (.plain t) ∧ t.features = ["a\r"] ∧
      (License.plain t).document = .error fault ∧ fault.typeName = "LicenseEncodeError") ∧
    toLicense (.text looseDocument) = .ok (.plain looseTerms) ∧
    ∃ r, (License.plain looseTerms).document = .ok r ∧
      toLicense (.text r) = .ok (.plain looseTerms) := by
  have hreturn : toLicense (.text returnDocument) = .ok (.plain
      { id := ⟨0x0123456789abcdef0123456789abcdef⟩, features := ["a\r"] }) := by decide +kernel
  have hloose : toLicense (.text looseDocument) = .ok (.plain looseTerms) := by decide +kernel
  obtain ⟨-, hiff, htype, -⟩ := document_stable hreturn
  obtain ⟨fault, hfault⟩ := hiff.2 (by decide)
  obtain ⟨-, -, -, hstable⟩ := document_stable hloose
  obtain ⟨r, m, hr, hm, rfl, -, -⟩ := hstable (by decide)
  exact ⟨⟨_, fault, hreturn, rfl, hfault, htype fault hfault⟩, hloose, r, hr, hm⟩

end Content

end LicenseDepot
