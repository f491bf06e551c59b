import LicenseDepot.Proofs.LicenseDocument.RoundTrip
import LicenseDepot.Proofs.Numeral.Hexadecimal

/-!
# Terms that are refused

Writing goes through the texts of some terms character by character: the entries about the licensee
in their order, of each entry the name before the value, and then the features. The first character
that its place cannot hold is what the terms are refused for, however many more there are, and the
report names its field and its code point. Main statements: `failure?_write`, which says of any
terms what they are refused for, and `write_eq_error_iff`.
-/

namespace LicenseDepot.LicenseDocument

open Text Numeral

variable {t : Terms} {field : Field} {c : Char}

/-- The code points of the characters that a document can hold in any place. -/
def plainRanges : List (Nat × Nat) :=
  [(0x20, 0xD7FF), (0xE000, 0xFFFD), (0x10000, 0x10FFFF)]

/-- Whether a field can hold a character: a plain one always, and a tab or a line feed unless the
field is a name. -/
def Field.Takes (field : Field) (c : Char) : Prop :=
  (∃ r ∈ plainRanges, r.1 ≤ c.toNat ∧ c.toNat ≤ r.2) ∨
    (field ≠ .entryName ∧ (c = '\t' ∨ c = '\n'))

theorem isAttributeChar_iff_plain :
    isAttributeChar c = true ↔ ∃ r ∈ plainRanges, r.1 ≤ c.toNat ∧ c.toNat ≤ r.2 := by
  have hvalid := toNat_valid c
  simp only [isAttributeChar, Bool.and_eq_true, decide_eq_true_eq, bne_iff_ne, plainRanges,
    List.mem_cons, List.not_mem_nil, or_false, exists_eq_or_imp, exists_eq_left]
  omega

theorem Field.holds_iff_takes : field.holds c = true ↔ field.Takes c := by
  unfold Field.Takes
  rw [← isAttributeChar_iff_plain]
  cases field <;> simp [Field.holds, isTextChar, or_assoc]

/-- The characters of a text, each with the field that the text is written in. -/
def placed (field : Field) (s : String) : List (Field × Char) :=
  s.toList.map (Prod.mk field)

/-- The characters of an entry about the licensee in the order of writing. -/
def placedEntry (entry : String × String) : List (Field × Char) :=
  placed .entryName entry.1 ++ placed (.entryValue entry.1) entry.2

/-- The characters of some terms in the order of writing. -/
def placedChars (t : Terms) : List (Field × Char) :=
  t.licensee.entries.flatMap placedEntry ++ t.features.flatMap (placed .feature)

/-- Whether a character is the first one, in the order of writing, that its field cannot hold. -/
def IsFirstUnfit (t : Terms) (field : Field) (c : Char) : Prop :=
  ∃ before after, placedChars t = before ++ (field, c) :: after ∧
    (∀ p ∈ before, p.1.Takes p.2) ∧ ¬ field.Takes c

/-- Whether a name, a value or a feature of some terms has a character that its field cannot
hold. -/
def HoldsUnfit (t : Terms) : Prop :=
  (∃ e ∈ t.licensee.entries, ∃ c ∈ e.1.toList, ¬ Field.entryName.Takes c) ∨
    (∃ e ∈ t.licensee.entries, ∃ c ∈ e.2.toList, ¬ (Field.entryValue e.1).Takes c) ∨
    ∃ f ∈ t.features, ∃ c ∈ f.toList, ¬ Field.feature.Takes c

/-- The first fault among some characters with their fields. -/
def firstFault (ps : List (Field × Char)) : Option Fault :=
  (ps.find? fun p => !p.1.holds p.2).map fun p => .unrepresentable p.1 p.2

theorem firstFault_append (ps qs : List (Field × Char)) :
    firstFault (ps ++ qs) = (firstFault ps).or (firstFault qs) := by
  rw [firstFault, List.find?_append, Option.map_or, firstFault, firstFault]

/-! What each part of the writer is refused for. -/

theorem failure?_checked (field : Field) (s : String) :
    failure? (checked field s) = firstFault (placed field s) := by
  have hplaced : (placed field s).find? (fun p => !p.1.holds p.2)
      = (s.toList.find? fun c => !field.holds c).map (Prod.mk field) :=
    List.find?_map
  rw [firstFault, hplaced, checked]
  cases s.toList.find? fun c => !field.holds c with
  | none => rfl
  | some c => rfl

theorem failure?_entryElement (entry : String × String) :
    failure? (entryElement entry) = firstFault (placedEntry entry) := by
  rw [placedEntry, firstFault_append, ← failure?_checked, ← failure?_checked]
  exact failure?_bind fun name _ => failure?_bind_pure _ _

theorem failure?_featureElement (feature : String) :
    failure? (featureElement feature) = firstFault (placed .feature feature) := by
  rw [featureElement, failure?_map, failure?_checked]

/-- Terms are refused for the first character that its field cannot hold or, if there is none, for
their number of users. -/
theorem failure?_write (t : Terms) :
    failure? (write t)
      = (firstFault (placedChars t)).or (failure? (t.maxUsers.mapM maxUsersText)) := by
  have hentries := failure?_mapM failure?_entryElement t.licensee.entries
  have hfeatures := failure?_mapM failure?_featureElement t.features
  rw [write, failure?_map, placedChars, firstFault_append, Option.or_assoc]
  refine (failure?_bind fun entries _ => failure?_bind fun features _ =>
    failure?_bind_pure _ _).trans ?_
  rw [hentries, hfeatures]
  rfl

/-! Terms whose number of users can be written. -/

theorem firstFault_eq_some_iff {fault : Fault} :
    firstFault (placedChars t) = some fault ↔
      ∃ field c, IsFirstUnfit t field c ∧ fault = .unrepresentable field c := by
  simp only [firstFault, Option.map_eq_some_iff, List.find?_eq_some_iff_append, Prod.exists,
    Bool.not_eq_true', Bool.not_not, ← Bool.not_eq_true, Field.holds_iff_takes, IsFirstUnfit]
  constructor
  · rintro ⟨field, c, ⟨hunfit, before, after, hsplit, hbefore⟩, rfl⟩
    exact ⟨field, c, ⟨before, after, hsplit, hbefore, hunfit⟩, rfl⟩
  · rintro ⟨field, c, ⟨before, after, hsplit, hbefore, hunfit⟩, rfl⟩
    exact ⟨field, c, ⟨hunfit, before, after, hsplit, hbefore⟩, rfl⟩

theorem firstFault_eq_none_iff : firstFault (placedChars t) = none ↔ ¬ HoldsUnfit t := by
  simp only [firstFault, Option.map_eq_none_iff, List.find?_eq_none, Bool.not_eq_true',
    Bool.not_eq_false, placedChars, placedEntry, placed, List.mem_append, List.mem_flatMap,
    List.mem_map, Field.holds_iff_takes, HoldsUnfit]
  constructor
  · rintro h (⟨e, he, c, hc, hunfit⟩ | ⟨e, he, c, hc, hunfit⟩ | ⟨f, hf, c, hc, hunfit⟩)
    · exact hunfit (h _ (.inl ⟨e, he, .inl ⟨c, hc, rfl⟩⟩))
    · exact hunfit (h _ (.inl ⟨e, he, .inr ⟨c, hc, rfl⟩⟩))
    · exact hunfit (h _ (.inr ⟨f, hf, c, hc, rfl⟩))
  · rintro h p (⟨e, he, ⟨c, hc, rfl⟩ | ⟨c, hc, rfl⟩⟩ | ⟨f, hf, c, hc, rfl⟩)
    · by_contra hunfit
      exact h (.inl ⟨e, he, c, hc, hunfit⟩)
    · by_contra hunfit
      exact h (.inr (.inl ⟨e, he, c, hc, hunfit⟩))
    · by_contra hunfit
      exact h (.inr (.inr ⟨f, hf, c, hc, hunfit⟩))

/-- Where the number of users can be written, terms are refused for a character or not at all. -/
theorem failure?_write_of_isWritable (h : ∀ n ∈ t.maxUsers, Integer.isWritable n = true) :
    failure? (write t) = firstFault (placedChars t) := by
  rw [failure?_write, mapM_maxUsersText_eq_ok_iff.2 ⟨h, rfl⟩]
  exact Option.or_none

theorem write_eq_error_iff (h : ∀ n ∈ t.maxUsers, Integer.isWritable n = true) {fault : Fault} :
    write t = .error fault ↔
      ∃ field c, IsFirstUnfit t field c ∧ fault = .unrepresentable field c := by
  rw [← failure?_eq_some_iff, failure?_write_of_isWritable h, firstFault_eq_some_iff]

theorem exists_write_iff (h : ∀ n ∈ t.maxUsers, Integer.isWritable n = true) :
    (∃ s, write t = .ok s) ↔ ¬ HoldsUnfit t := by
  rw [← failure?_eq_none_iff, failure?_write_of_isWritable h, firstFault_eq_none_iff]

/-! What the report says. -/

/-- Whether a report names a field and the code point of a character, in hexadecimal digits. -/
def Names (report : String) (field : Field) (c : Char) : Prop :=
  ∃ digits : List Char,
    report = "El campo " ++ field.label ++ " contiene un carácter no representable en XML: "
      ++ ("U+" ++ String.ofList digits) ∧
    4 ≤ digits.length ∧ Integer.valueOf 16 digits = c.toNat

theorem names_message (field : Field) (c : Char) :
    Names (Fault.unrepresentable field c).message field c :=
  ⟨upperHex 4 c.toNat, rfl, Integer.le_length_upperHex _ _, Integer.valueOf_upperHex _ _⟩

end LicenseDepot.LicenseDocument
