import LicenseDepot.Markup.Document
import LicenseDepot.Proofs.Outcome

/-!
# Declared encodings

Reading a document fails in one way that is no fault of the document: its declaration names an
encoding that cannot be used. Whether it does can be told from the name alone, and none of the names
that every reader has to know is among them. Main statements: `read_eq_encoding_iff` and
`encodingFault?_eq_none`.
-/

namespace LicenseDepot.Markup

open Text

variable {text s : List Char} {name : List Char} {fault : EncodingFault}

/-- The text whose declaration counts: that of the two-byte units, if the document is made of these,
and otherwise the document itself without the mark of its byte order. -/
def declaringText? (text : List Char) : Option (List Char) :=
  match byteOrder? (Utf8.encode text) with
  | some order => (units? order (Utf8.encode text)).bind ofUnits?
  | none => some (dropMarkOfOrder text)

/-- The encoding that a document declares. -/
def declaredEncoding? (text : List Char) : Option (List Char) :=
  (declaringText? text).bind fun s => (Declaration.read s).toOption.bind (·.1.encoding)

/-- Why a document cannot be read in the encoding of a name, however it goes on. -/
def encodingFault? (name : List Char) : Option EncodingFault :=
  match BuiltIn.ofName? name with
  | some _ => none
  | none =>
    match (coding? name).map Coding.kind with
    | none => some (.unknown name)
    | some .wide => some .wide
    | some .transform => some (.transform name)
    | some .narrow => some .narrow
    | some .refusing => some (.refusing name)
    | some (.page _ _) | some .foreign => none

theorem declaredEncoding?_eq_some_iff :
    declaredEncoding? text = some name ↔ ∃ s d rest, declaringText? text = some s ∧
      Declaration.read s = .ok (d, rest) ∧ d.encoding = some name := by
  simp only [declaredEncoding?, Option.bind_eq_some_iff, toOption_eq_some_iff, Prod.exists]
  constructor
  · rintro ⟨s, hs, d, rest, hread, hname⟩
    exact ⟨s, d, rest, hs, hread, hname⟩
  · rintro ⟨s, d, rest, hs, hread, hname⟩
    exact ⟨s, hs, d, rest, hread, hname⟩

/-- The encodings that every reader knows can be used, in whatever case their names are written. -/
theorem encodingFault?_eq_none (h : name.map Char.toLower ∈
    ["utf-8".toList, "utf-16".toList, "iso-8859-1".toList, "us-ascii".toList]) :
    encodingFault? name = none := by
  have hknown : ∃ b, BuiltIn.ofName? name = some b := by
    rw [BuiltIn.ofName?]
    simp only [List.mem_cons, List.not_mem_nil, or_false] at h
    rcases h with h | h | h | h
    · exact ⟨.utf8, by rw [h]; decide⟩
    · exact ⟨.utf16 none, by rw [h]; decide⟩
    · exact ⟨.latin1, by rw [h]; decide⟩
    · exact ⟨.ascii, by rw [h]; decide⟩
  obtain ⟨b, hb⟩ := hknown
  rw [encodingFault?, hb]

/-- Reading a text once more stops at an encoding that cannot be used, and only there. -/
theorem reread_eq_encoding_iff :
    reread name s = .error (.encoding fault) ↔ encodingFault? name = some fault := by
  unfold reread encodingFault?
  cases hbuiltIn : BuiltIn.ofName? name with
  | some b =>
    cases b with
    | ascii =>
      simp only
      split <;> simp
    | utf8 => simp
    | latin1 => simp
    | utf16 order => simp
  | none =>
    simp only
    cases hkind : (coding? name).map Coding.kind with
    | none => simp
    | some kind =>
      cases kind with
      | page upper missing =>
        simp only
        split <;> simp
      | foreign => simp
      | wide => simp
      | transform => simp
      | narrow => simp
      | refusing => simp

theorem checkUnits_eq_encoding_iff {order : ByteOrder} {declared : Option (List Char)} :
    checkUnits order declared = .error (.encoding fault) ↔
      ∃ name, declared = some name ∧ encodingFault? name = some fault := by
  unfold checkUnits
  cases declared with
  | none => simp
  | some name =>
    cases hbuiltIn : BuiltIn.ofName? name with
    | some b =>
      have hnone : encodingFault? name = none := by rw [encodingFault?, hbuiltIn]
      simp only [hbuiltIn, Option.some.injEq, exists_eq_left', hnone]
      cases b with
      | utf16 o =>
        cases o with
        | none => simp
        | some o =>
          simp only
          split <;> simp
      | utf8 => simp
      | latin1 => simp
      | ascii => simp
    | none =>
      simp only [hbuiltIn, Option.some.injEq, exists_eq_left']
      rw [← reread_eq_encoding_iff (s := [])]
      cases reread name [] <;> simp [Except.bind]

/-- The end of reading characters: all of them have to be such as a document may hold. -/
def legalCharacters (a : Declaration × List Char) :
    Except DocumentFault (Declaration × List Char) :=
  if a.2.all isXmlChar then .ok (a.1, lineEnds a.2) else .error (.malformed .character)

theorem legalCharacters_ne (a : Declaration × List Char) :
    legalCharacters a ≠ .error (.encoding fault) := by
  intro h
  unfold legalCharacters at h
  split at h <;> cases h

theorem readCharacters_of_units {order : ByteOrder}
    (h : byteOrder? (Utf8.encode text) = some order) :
    readCharacters text = match declaringText? text with
      | none => .error (.malformed .character)
      | some s => (Declaration.read s).mapError .malformed >>= fun a =>
        checkUnits order a.1.encoding >>= fun _ => legalCharacters a := by
  unfold readCharacters declaringText?
  simp only [h]
  cases (units? order (Utf8.encode text)).bind ofUnits? with
  | none => rfl
  | some s => rfl

theorem readCharacters_of_no_units (h : byteOrder? (Utf8.encode text) = none) :
    readCharacters text = (Declaration.read (dropMarkOfOrder text)).mapError .malformed >>= fun a =>
      match a.1.encoding with
      | none => legalCharacters a
      | some name => reread name a.2 >>= fun rest => legalCharacters (a.1, rest) := by
  unfold readCharacters
  simp only [h]
  rfl

/-- The characters of a document are not to be had for the encoding that it declares just if that
encoding cannot be used. -/
theorem readCharacters_eq_encoding_iff :
    readCharacters text = .error (.encoding fault) ↔
      ∃ name, declaredEncoding? text = some name ∧ encodingFault? name = some fault := by
  simp only [declaredEncoding?_eq_some_iff]
  have hmalformed : ∀ {s : List Char},
      (Declaration.read s).mapError DocumentFault.malformed ≠ .error (.encoding fault) := by
    intro s h
    obtain ⟨e, -, heq⟩ := mapError_eq_error_iff.1 h
    cases heq
  cases horder : byteOrder? (Utf8.encode text) with
  | some order =>
    rw [readCharacters_of_units horder]
    cases declaringText? text with
    | none => simp
    | some s =>
      constructor
      · intro h
        obtain ⟨a, hread, h⟩ := (bind_eq_error_iff.1 h).resolve_left hmalformed
        rcases bind_eq_error_iff.1 h with hcheck | ⟨u, -, h⟩
        · obtain ⟨name, hname, hfault⟩ := checkUnits_eq_encoding_iff.1 hcheck
          exact ⟨name, ⟨s, a.1, a.2, rfl, mapError_eq_ok_iff.1 hread, hname⟩, hfault⟩
        · exact absurd h (legalCharacters_ne a)
      · rintro ⟨name, ⟨s', d, rest, hs, hread, hname⟩, hfault⟩
        cases hs
        have hcheck : checkUnits order d.encoding = .error (.encoding fault) :=
          checkUnits_eq_encoding_iff.2 ⟨name, hname, hfault⟩
        exact bind_eq_error_iff.2
          (.inr ⟨_, mapError_eq_ok_iff.2 hread, bind_eq_error_iff.2 (.inl hcheck)⟩)
  | none =>
    rw [readCharacters_of_no_units horder, declaringText?, horder]
    constructor
    · intro h
      obtain ⟨a, hread, h⟩ := (bind_eq_error_iff.1 h).resolve_left hmalformed
      split at h
      · exact absurd h (legalCharacters_ne a)
      · rename_i name hname
        rcases bind_eq_error_iff.1 h with hreread | ⟨rest, -, h⟩
        · exact ⟨name, ⟨_, a.1, a.2, rfl, mapError_eq_ok_iff.1 hread, hname⟩,
            reread_eq_encoding_iff.1 hreread⟩
        · exact absurd h (legalCharacters_ne (a.1, rest))
    · rintro ⟨name, ⟨s', d, rest, hs, hread, hname⟩, hfault⟩
      cases hs
      refine bind_eq_error_iff.2 (.inr ⟨_, mapError_eq_ok_iff.2 hread, ?_⟩)
      simp only [hname]
      exact bind_eq_error_iff.2 (.inl (reread_eq_encoding_iff.2 hfault))

/-- A document is not read for the encoding that it declares just if that encoding cannot be used:
no text makes it readable, and none that declares another encoding, or none, is turned away so. -/
theorem read_eq_encoding_iff :
    Element.read text = .error (.encoding fault) ↔
      ∃ name, declaredEncoding? text = some name ∧ encodingFault? name = some fault := by
  rw [← readCharacters_eq_encoding_iff, Element.read, bind_eq_error_iff]
  simp [mapError_eq_error_iff]

end LicenseDepot.Markup
