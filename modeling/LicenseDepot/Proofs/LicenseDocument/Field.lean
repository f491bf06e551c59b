import LicenseDepot.LicenseDocument.Reader
import LicenseDepot.Proofs.Numeral.Integer
import LicenseDepot.Proofs.Outcome

/-!
# Fields that cannot be read

A document of a licence states no terms just if one of its fields is missing or is not written as it
has to be. Main statement: `exists_readFields_error_iff_badField`.
-/

namespace LicenseDepot.LicenseDocument

open Markup Text Numeral

variable {root : Element}

/-- What is wrong with a field of a document. -/
inductive BadField (root : Element) : Prop
  /-- There is no identifier. -/
  | missingId (h : root.childText? "id" = none)
  /-- The identifier is malformed. -/
  | id {s : List Char} {fault : LicenseId.Fault} (h : root.childText? "id" = some s)
      (hs : LicenseId.read s = .error fault)
  /-- The type is none of those that are known. -/
  | type {s : List Char} (h : root.childText? "type" = some s)
      (hs : ∀ type : LicenseType, trim s ≠ type.toText.toList)
  /-- The expiry date is there and is no date. -/
  | expiration {s : List Char} {fault : Timestamp.Fault}
      (h : root.childText? "expirationDate" = some s) (hne : s ≠ [])
      (hs : Timestamp.read (trim s) = .error fault)
  /-- The number of users is there and is no integer. -/
  | maxUsers {s : List Char} {fault : Integer.Fault} (h : root.childText? "maxUserCount" = some s)
      (hne : s ≠ []) (hs : Integer.read 10 s = .error fault)
  /-- The number of users is a run of too many digits. -/
  | longMaxUsers {s : List Char} (h : root.childText? "maxUserCount" = some s)
      (hdigits : ∀ c ∈ s, c.isDigit = true) (hlong : 4300 < s.length)

theorem read_nil : LicenseId.read [] = .error .malformed := by
  simp [LicenseId.read, LicenseId.bare, LicenseId.without, LicenseId.unbraced]

theorem ofText?_eq_none_iff {word : String} :
    LicenseType.ofText? word = none ↔ ∀ type : LicenseType, word ≠ type.toText := by
  rw [LicenseType.ofText?, List.find?_eq_none]
  constructor
  · intro h type heq
    have hmem : type ∈ LicenseType.all := by cases type <;> decide
    exact h type hmem (by simp [heq])
  · intro h type _ heq
    exact h type (by simpa using (beq_iff_eq.1 heq).symm)

theorem exists_readType_error_iff {s : List Char} :
    (∃ fault, readType s = .error fault) ↔
      ∀ type : LicenseType, trim s ≠ type.toText.toList := by
  have hword : (∀ type : LicenseType, String.ofList (trim s) ≠ type.toText) ↔
      ∀ type : LicenseType, trim s ≠ type.toText.toList := by
    refine forall_congr' fun type => not_congr ?_
    rw [← String.toList_inj, String.toList_ofList]
  rw [← hword, ← ofText?_eq_none_iff]
  unfold readType
  cases hof : LicenseType.ofText? (String.ofList (trim s)) with
  | none => simp [hof]
  | some type => simp [hof]

/-- A field that may be missing cannot be read just if it is there, is not empty and is misread. -/
theorem exists_readOptional_error_iff {α : Type} {text : Option (List Char)}
    {f : List Char → Except FieldFault α} :
    (∃ fault, readOptional text f = .error fault) ↔
      ∃ s, text = some s ∧ s ≠ [] ∧ ∃ fault, f s = .error fault := by
  unfold readOptional
  split
  · simp
  · simp
  · rename_i s hne
    rw [exists_map_error_iff]
    constructor
    · intro h
      exact ⟨s, rfl, hne, h⟩
    · rintro ⟨s', hs, -, h⟩
      cases hs
      exact h

/-- The fields cannot be read just if one of them cannot. -/
theorem exists_readFields_error_iff :
    (∃ fault, readFields root = .error fault) ↔
      (∃ fault, LicenseId.read ((root.childText? "id").getD []) = .error fault) ∨
      (∃ fault, readType ((root.childText? "type").getD "FREE".toList) = .error fault) ∨
      (∃ s, root.childText? "expirationDate" = some s ∧ s ≠ [] ∧
        ∃ fault, Timestamp.read (trim s) = .error fault) ∨
      ∃ s, root.childText? "maxUserCount" = some s ∧ s ≠ [] ∧
        ∃ fault, Integer.read 10 s = .error fault := by
  have hexpiration : (∃ fault, readOptional (root.childText? "expirationDate")
      (fun s => (Timestamp.read (trim s)).mapError .expiration) = .error fault) ↔ _ :=
    exists_readOptional_error_iff
  have hmaxUsers : (∃ fault, readOptional (root.childText? "maxUserCount")
      (fun s => (Integer.read 10 s).mapError .maxUsers) = .error fault) ↔ _ :=
    exists_readOptional_error_iff
  simp only [exists_mapError_error_iff] at hexpiration hmaxUsers
  rw [← hexpiration, ← hmaxUsers, ← exists_mapError_error_iff (f := FieldFault.id)]
  unfold readFields
  refine exists_bind_error_iff fun id => exists_bind_error_iff fun type =>
    exists_bind_error_iff fun expiration => ?_
  rw [exists_bind_error_iff (P := False) (fun maxUsers => by simp [pure, Except.pure]), or_false]

/-- A document of a licence states no terms just if something is wrong with a field. -/
theorem exists_readFields_error_iff_badField :
    (∃ fault, readFields root = .error fault) ↔ BadField root := by
  rw [exists_readFields_error_iff]
  constructor
  · rintro (⟨fault, h⟩ | ⟨fault, h⟩ | ⟨s, hs, hne, fault, h⟩ | ⟨s, hs, hne, fault, h⟩)
    · cases hid : root.childText? "id" with
      | none => exact .missingId hid
      | some s =>
        rw [hid] at h
        exact .id hid h
    · cases htype : root.childText? "type" with
      | none =>
        rw [htype] at h
        have hfree := exists_readType_error_iff.1 ⟨fault, h⟩ .free
        exact absurd rfl hfree
      | some s =>
        rw [htype] at h
        exact .type htype (exists_readType_error_iff.1 ⟨fault, h⟩)
    · exact .expiration hs hne h
    · exact .maxUsers hs hne h
  · intro h
    cases h with
    | missingId h =>
      rw [h]
      exact .inl ⟨.malformed, read_nil⟩
    | @id s fault h hs =>
      rw [h]
      exact .inl ⟨fault, hs⟩
    | type h hs =>
      rw [h]
      exact .inr (.inl (exists_readType_error_iff.2 hs))
    | expiration h hne hs => exact .inr (.inr (.inl ⟨_, h, hne, _, hs⟩))
    | maxUsers h hne hs => exact .inr (.inr (.inr ⟨_, h, hne, _, hs⟩))
    | @longMaxUsers s h hdigits hlong =>
      have hne : s ≠ [] := List.length_pos_iff.1 (Nat.zero_lt_of_lt hlong)
      have hread := Integer.read_long_run
        (fun c hc => by rw [Integer.IsDigit, Integer.digitValue?_of_isDigit (hdigits c hc)]; rfl)
        hlong
      exact .inr (.inr (.inr ⟨s, h, hne, _, hread⟩))

end LicenseDepot.LicenseDocument
