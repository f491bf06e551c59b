import LicenseDepot.Proofs.Content.Opening
import LicenseDepot.Proofs.LicenseDocument.Field
import LicenseDepot.Proofs.Markup.Encoding

/-!
# How conversion ends

Content is converted to a licence, is unfit for one, or holds a document that names an encoding
which cannot be used. What is unfit is told stage by stage, from the envelope to the fields, and all
of it is reported as what cannot be decoded; an encoding that cannot be used is reported as what the
reader of documents makes of it. Main statement: `toLicense_ends`.
-/

namespace LicenseDepot

open Text Markup LicenseDocument

namespace Content

variable {c : Content} {data : Bytes} {s : List Char} {l : License}

/-- The text of the document that content holds: that of the content itself, or that of the payload
of the envelope. -/
inductive HoldsDocument : Content → List Char → Prop
  | text (s : List Char) : HoldsDocument (.text s) s
  | binary {data : Bytes} {s : List Char} {signature : Bytes}
      (h : Envelope.Splits data (Utf8.encode s) signature) : HoldsDocument (.binary data) s

/-- What is wrong with the text of a document. -/
inductive UnfitText (s : List Char) : Prop
  | malformed {fault : Malformed} (h : Element.read s = .error (.malformed fault))
  | root {root : Element} (h : Element.read s = .ok root)
      (hname : root.name ≠ .plain "license".toList)
  | field {root : Element} (h : Element.read s = .ok root)
      (hname : root.name = .plain "license".toList) (hfield : BadField root)

/-- What is wrong with content. -/
inductive Unfit : Content → Prop
  /-- The bytes are no envelope. -/
  | envelope {data : Bytes} (h : ∀ payload signature, ¬ Envelope.Splits data payload signature) :
      Unfit (.binary data)
  /-- The payload is no text. -/
  | payload {data payload signature : Bytes} (h : Envelope.Splits data payload signature)
      (hpayload : ∀ s, payload ≠ Utf8.encode s) : Unfit (.binary data)
  /-- The payload is a document whose encoding stops at the first byte past ASCII. -/
  | narrow {data : Bytes} {s name : List Char} (h : HoldsDocument (.binary data) s)
      (hname : declaredEncoding? s = some name) (hfault : encodingFault? name = some .narrow) :
      Unfit (.binary data)
  /-- The document is no document of a licence. -/
  | document {c : Content} {s : List Char} (h : HoldsDocument c s) (hs : UnfitText s) : Unfit c

/-- What the content of a file is turned away with, unless the encoding is at fault. -/
theorem typeName_eq_iff {fault : Content.Fault} :
    fault.typeName = "LicenseDecodeError" ↔ ∀ e, fault ≠ .encoding e := by
  cases fault with
  | malformed e => simp [Content.Fault.typeName]
  | document e => simp [Content.Fault.typeName]
  | envelope e => simp [Content.Fault.typeName]
  | payload => simp [Content.Fault.typeName]
  | encoding e => cases e <;> simp [Content.Fault.typeName]

/-- The words for a failed look-up, and for a value that is no good, the narrower ones included. -/
def lookupOrValueErrors : List String :=
  ["LookupError", "ValueError", "UnicodeError", "UnicodeDecodeError"]

theorem typeName_encoding_mem (e : EncodingFault) :
    (Content.Fault.encoding e).typeName ∈ lookupOrValueErrors := by
  cases e <;> simp [Content.Fault.typeName, lookupOrValueErrors]

/-! The text of a document. -/

theorem readTerms_eq_encoding_iff {e : EncodingFault} :
    readTerms s = .error (.encoding e) ↔ Element.read s = .error (.encoding e) := by
  unfold readTerms
  cases Element.read s with
  | error fault => cases fault <;> simp
  | ok root => simp [mapError_eq_error_iff]

theorem exists_ofElement_error_iff {root : Element} :
    (∃ fault, ofElement root = .error fault) ↔
      root.name ≠ .plain "license".toList ∨
        root.name = .plain "license".toList ∧ BadField root := by
  unfold ofElement
  split
  · rename_i hname
    simp [exists_mapError_error_iff, exists_readFields_error_iff_badField, hname]
  · rename_i hname
    exact iff_of_true ⟨_, rfl⟩ (.inl hname)

/-- The text of a document states no terms, though its encoding can be used, just if something is
wrong with it. -/
theorem exists_readTerms_error_iff :
    (∃ fault, readTerms s = .error fault ∧ ∀ e, fault ≠ .encoding e) ↔ UnfitText s := by
  have hdocument : ∀ root, Element.read s = .ok root →
      ((∃ fault, readTerms s = .error fault ∧ ∀ e, fault ≠ .encoding e) ↔
        ∃ fault, ofElement root = .error fault) := by
    intro root hroot
    unfold readTerms
    simp [hroot, mapError_eq_error_iff]
  constructor
  · rintro ⟨fault, h, hno⟩
    cases hread : Element.read s with
    | error e =>
      cases e with
      | malformed m => exact .malformed hread
      | encoding e =>
        rw [readTerms_eq_encoding_iff.2 hread] at h
        cases h
        exact absurd rfl (hno e)
    | ok root =>
      rcases exists_ofElement_error_iff.1 ((hdocument root hread).1 ⟨fault, h, hno⟩) with
        hname | ⟨hname, hfield⟩
      · exact .root hread hname
      · exact .field hread hname hfield
  · intro h
    cases h with
    | @malformed m h =>
      refine ⟨.malformed m, ?_, by simp⟩
      unfold readTerms
      rw [h]
    | root h hname => exact (hdocument _ h).2 (exists_ofElement_error_iff.2 (.inl hname))
    | field h hname hfield =>
      exact (hdocument _ h).2 (exists_ofElement_error_iff.2 (.inr ⟨hname, hfield⟩))

/-! Content. -/

theorem holdsDocument_text_iff {s' : List Char} : HoldsDocument (.text s) s' ↔ s' = s := by
  constructor
  · rintro ⟨⟩
    rfl
  · rintro rfl
    exact .text s'

theorem toLicense_text_eq_error_iff {fault : Content.Fault} :
    (Content.text s).toLicense = .error fault ↔ readTerms s = .error fault :=
  map_eq_error_iff

section Splits

variable {payload signature : Bytes} {fault : Content.Fault}

theorem exists_toLicense_of_not_splits (h : ∀ payload signature,
    ¬ Envelope.Splits data payload signature) :
    ∃ fault, (Content.binary data).toLicense = .error (.envelope fault) := by
  cases hdecode : Envelope.decode data with
  | ok e => exact absurd (Envelope.decode_eq_ok_iff_splits.1 hdecode) (h _ _)
  | error fault =>
    exact ⟨fault, (toLicense_of_flawed (Envelope.decode_eq_error_iff_flawed.1 hdecode)).1⟩

/-- An envelope holds no licence just if its payload states no terms. -/
theorem toLicense_eq_error_iff_of_splits (h : Envelope.Splits data payload signature) :
    (Content.binary data).toLicense = .error fault ↔ readPayload payload = .error fault := by
  have hdecode := Envelope.decode_eq_ok_iff_splits.2 h
  have hne : data ≠ [] := by
    rintro rfl
    cases hdecode
  rw [toLicense, readSealed, hdecode]
  simp only [License.ofSealed?, dif_pos hne]
  cases readPayload payload with
  | error e => simp [Except.bind]
  | ok t => simp [Except.bind]

theorem toLicense_of_no_text (h : Envelope.Splits data payload signature)
    (htext : ∀ s, payload ≠ Utf8.encode s) :
    (Content.binary data).toLicense = .error .payload := by
  rw [toLicense_eq_error_iff_of_splits h, readPayload]
  cases hdecode : Utf8.decode payload with
  | error e => rfl
  | ok s => exact absurd (Utf8.decode_eq_ok_iff.1 hdecode) (htext s)

/-- A payload that is a text states no terms just if the text does not; an encoding that stops at
the first byte past ASCII makes it count as no text. -/
theorem toLicense_eq_error_iff_of_document (h : Envelope.Splits data (Utf8.encode s) signature) :
    (Content.binary data).toLicense = .error fault ↔
      if readTerms s = .error (.encoding .narrow) then fault = .payload
      else readTerms s = .error fault := by
  rw [toLicense_eq_error_iff_of_splits h, readPayload, Utf8.decode_encode]
  simp only
  split
  · rename_i hnarrow
    rw [hnarrow, if_pos rfl]
    simp [eq_comm]
  · rename_i hno
    rw [if_neg hno]

/-- Bytes are no envelope, an envelope whose payload is no text, or an envelope with a document. -/
theorem splits_cases (data : Bytes) :
    (∀ payload signature, ¬ Envelope.Splits data payload signature) ∨
      (∃ payload signature, Envelope.Splits data payload signature ∧
        ∀ s, payload ≠ Utf8.encode s) ∨
      ∃ s signature, Envelope.Splits data (Utf8.encode s) signature := by
  by_cases hsplits : ∃ payload signature, Envelope.Splits data payload signature
  · obtain ⟨payload, signature, h⟩ := hsplits
    by_cases htext : ∃ s, payload = Utf8.encode s
    · obtain ⟨s, rfl⟩ := htext
      exact .inr (.inr ⟨s, signature, h⟩)
    · exact .inr (.inl ⟨payload, signature, h, fun s hs => htext ⟨s, hs⟩⟩)
  · exact .inl fun payload signature h => hsplits ⟨payload, signature, h⟩

theorem eq_encode_of_holdsDocument (h : Envelope.Splits data payload signature)
    (hs : HoldsDocument (.binary data) s) : payload = Utf8.encode s := by
  cases hs with
  | binary h' => exact (h.unique h').1

theorem holdsDocument_binary_iff {s' : List Char}
    (h : Envelope.Splits data (Utf8.encode s) signature) :
    HoldsDocument (.binary data) s' ↔ s' = s := by
  constructor
  · intro hs
    exact (Utf8.encode_inj (eq_encode_of_holdsDocument h hs)).symm
  · rintro rfl
    exact .binary h

end Splits

/-- Content is turned away for its encoding just if the document that it holds declares one that
cannot be used; in an envelope, one that stops at the first byte past ASCII makes the payload unfit
instead. -/
theorem toLicense_eq_encoding_iff {e : EncodingFault} :
    c.toLicense = .error (.encoding e) ↔
      (∀ data, c = .binary data → e ≠ .narrow) ∧
        ∃ s name, HoldsDocument c s ∧ declaredEncoding? s = some name ∧
          encodingFault? name = some e := by
  have hread : ∀ s, readTerms s = .error (.encoding e) ↔
      ∃ name, declaredEncoding? s = some name ∧ encodingFault? name = some e :=
    fun s => readTerms_eq_encoding_iff.trans read_eq_encoding_iff
  cases c with
  | text s =>
    simp only [toLicense_text_eq_error_iff, hread, holdsDocument_text_iff]
    simp
  | binary data =>
    rcases splits_cases data with hnone | ⟨payload, signature, h, htext⟩ | ⟨s, signature, h⟩
    · obtain ⟨fault, hfault⟩ := exists_toLicense_of_not_splits hnone
      have hno : ∀ s, ¬ HoldsDocument (.binary data) s := by
        rintro s ⟨⟩
        rename_i h
        exact hnone _ _ h
      simp [hfault, hno]
    · have hno : ∀ s, ¬ HoldsDocument (.binary data) s :=
        fun s hs => htext s (eq_encode_of_holdsDocument h hs)
      simp [toLicense_of_no_text h htext, hno]
    · rw [toLicense_eq_error_iff_of_document h]
      simp only [holdsDocument_binary_iff h, exists_and_left, exists_eq_left, ← hread]
      split
      · rename_i hnarrow
        constructor
        · intro heq
          cases heq
        · rintro ⟨hne, he⟩
          rw [hnarrow] at he
          cases he
          exact absurd rfl (hne data rfl)
      · rename_i hno
        constructor
        · intro he
          exact ⟨fun _ _ heq => hno (heq ▸ he), he⟩
        · exact And.right

/-- Content is unfit for a licence just if it is turned away as what cannot be decoded. -/
theorem unfit_iff :
    Unfit c ↔ ∃ fault, c.toLicense = .error fault ∧ fault.typeName = "LicenseDecodeError" := by
  constructor
  · intro h
    cases h with
    | envelope h =>
      obtain ⟨fault, hfault⟩ := exists_toLicense_of_not_splits h
      exact ⟨_, hfault, rfl⟩
    | payload h hpayload => exact ⟨_, toLicense_of_no_text h hpayload, rfl⟩
    | narrow h hname hfault =>
      have hnarrow := readTerms_eq_encoding_iff.2 (read_eq_encoding_iff.2 ⟨_, hname, hfault⟩)
      refine ⟨.payload, ?_, rfl⟩
      cases h with
      | binary h => rw [toLicense_eq_error_iff_of_document h, if_pos hnarrow]
    | @document _ s h hs =>
      obtain ⟨fault, hfault, hno⟩ := exists_readTerms_error_iff.2 hs
      refine ⟨fault, ?_, typeName_eq_iff.2 hno⟩
      cases h with
      | text s => exact toLicense_text_eq_error_iff.2 hfault
      | binary h =>
        have hwide : ¬ readTerms s = .error (.encoding .narrow) := by
          intro hnarrow
          rw [hnarrow] at hfault
          cases hfault
          exact hno _ rfl
        rw [toLicense_eq_error_iff_of_document h, if_neg hwide]
        exact hfault
  · rintro ⟨fault, h, htype⟩
    have hno := typeName_eq_iff.1 htype
    cases c with
    | text s =>
      exact .document (.text s)
        (exists_readTerms_error_iff.1 ⟨fault, toLicense_text_eq_error_iff.1 h, hno⟩)
    | binary data =>
      rcases splits_cases data with hnone | ⟨payload, signature, hsplits, htext⟩ |
        ⟨s, signature, hsplits⟩
      · exact .envelope hnone
      · exact .payload hsplits htext
      · rw [toLicense_eq_error_iff_of_document hsplits] at h
        split at h
        · rename_i hnarrow
          obtain ⟨name, hname, hfault⟩ :=
            read_eq_encoding_iff.1 (readTerms_eq_encoding_iff.1 hnarrow)
          exact .narrow (.binary hsplits) hname hfault
        · exact .document (.binary hsplits) (exists_readTerms_error_iff.1 ⟨fault, h, hno⟩)

/-- A licence is signed just if it comes from bytes. -/
theorem kind_of_toLicense (h : c.toLicense = .ok l) :
    l.kind = .signed ↔ ∃ data, c = .binary data := by
  obtain ⟨s, rfl, hplain⟩ | ⟨data, rfl, hsigned⟩ := sealed?_of_toLicense h
  · cases l with
    | plain t => simp [License.kind]
    | signed t bytes hne => cases hplain
  · cases l with
    | plain t => cases hsigned
    | signed t bytes hne => simp [License.kind]

/-- Conversion ends with a licence, with the failure for what cannot be decoded, or with a failed
look-up or a value error because the reader of documents cannot use the encoding that the document
declares. The last happens for no document that declares none, or one of those that every reader
knows. What cannot be decoded is what is unfit, and a licence is signed just if it comes from
bytes. -/
theorem toLicense_ends (c : Content) :
    ((∃ l, c.toLicense = .ok l) ∨
      (∃ fault, c.toLicense = .error fault ∧ fault.typeName = "LicenseDecodeError") ∨
      ∃ e s name, c.toLicense = .error (.encoding e) ∧
        (Content.Fault.encoding e).typeName ∈ lookupOrValueErrors ∧ HoldsDocument c s ∧
        Element.read s = .error (.encoding e) ∧ declaredEncoding? s = some name ∧
        encodingFault? name = some e) ∧
    (∀ s, HoldsDocument c s →
      (∀ name, declaredEncoding? s = some name → name.map Char.toLower ∈
        ["utf-8".toList, "utf-16".toList, "iso-8859-1".toList, "us-ascii".toList]) →
      ∀ fault, c.toLicense = .error fault → fault.typeName = "LicenseDecodeError") ∧
    (Unfit c ↔ ∃ fault, c.toLicense = .error fault ∧ fault.typeName = "LicenseDecodeError") ∧
    ∀ l, c.toLicense = .ok l → (l.kind = .signed ↔ ∃ data, c = .binary data) := by
  refine ⟨?_, ?_, unfit_iff, fun l hl => kind_of_toLicense hl⟩
  · cases h : c.toLicense with
    | ok l => exact .inl ⟨l, rfl⟩
    | error fault =>
      by_cases hencoding : ∃ e, fault = .encoding e
      · obtain ⟨e, rfl⟩ := hencoding
        obtain ⟨-, s, name, hs, hname, hfault⟩ := toLicense_eq_encoding_iff.1 h
        exact .inr (.inr ⟨e, s, name, rfl, typeName_encoding_mem e, hs,
          read_eq_encoding_iff.2 ⟨name, hname, hfault⟩, hname, hfault⟩)
      · exact .inr (.inl ⟨fault, rfl, typeName_eq_iff.2 fun e he => hencoding ⟨e, he⟩⟩)
  · intro s hs hknown fault h
    rw [typeName_eq_iff]
    rintro e rfl
    obtain ⟨-, s', name, hs', hname, hfault⟩ := toLicense_eq_encoding_iff.1 h
    have heq : s' = s := by
      cases hs with
      | text s => exact holdsDocument_text_iff.1 hs'
      | binary h => exact (holdsDocument_binary_iff h).1 hs'
    subst heq
    rw [encodingFault?_eq_none (hknown name hname)] at hfault
    cases hfault

/-- A document in an encoding that nobody knows. -/
def strangeDocument : List Char :=
  "<?xml version='1.0' encoding='klingon'?><license/>".toList

/-- A document in a known encoding whose number of users is no integer. -/
def crowdedDocument : List Char :=
  ("<?xml version='1.0' encoding='UTF-8'?><license><id>0123456789abcdef0123456789abcdef</id>"
    ++ "<maxUserCount>1e3</maxUserCount></license>").toList

/-- An envelope with a document of no more than an identifier. -/
def briefEnvelope : Bytes :=
  Envelope.encode
    ⟨Utf8.encode "<license><id>0123456789abcdef0123456789abcdef</id></license>".toList, []⟩

/-- The encoding of the first document cannot be found, the second document cannot be decoded, and
the envelope holds a signed licence. -/
theorem toLicense_ends_strangeDocument :
    (∃ e, (Content.text strangeDocument).toLicense = .error (.encoding e) ∧
      (Content.Fault.encoding e).typeName = "LookupError") ∧
    (∃ l, (Content.binary briefEnvelope).toLicense = .ok l ∧ l.kind = .signed) ∧
    declaredEncoding? crowdedDocument = some "UTF-8".toList ∧
    (∃ fault, (Content.text crowdedDocument).toLicense = .error fault ∧
      fault.typeName = "LicenseDecodeError") ∧ Unfit (.text crowdedDocument) := by
  have hstrange : (Content.text strangeDocument).toLicense
      = .error (.encoding (.unknown "klingon".toList)) := by decide +kernel
  have hdeclared : declaredEncoding? crowdedDocument = some "UTF-8".toList := by decide +kernel
  have hcrowded : ∃ fault, (Content.text crowdedDocument).toLicense = .error fault := by
    cases h : (Content.text crowdedDocument).toLicense with
    | ok l =>
      have hno : ((Content.text crowdedDocument).toLicense.toOption).isNone = true := by
        decide +kernel
      rw [h] at hno
      cases hno
    | error fault => exact ⟨fault, rfl⟩
  obtain ⟨hends, hknown, hunfit, -⟩ := toLicense_ends (.text crowdedDocument)
  obtain ⟨fault, hfault⟩ := hcrowded
  have htype := hknown _ (.text _) (fun name hname => by
    rw [hdeclared] at hname
    cases hname
    decide) fault hfault
  have hsealed : (Content.binary briefEnvelope).toLicense = .ok (.signed
      { id := ⟨0x0123456789abcdef0123456789abcdef⟩ } briefEnvelope (by decide)) := by
    decide +kernel
  have hkind := ((toLicense_ends (.binary briefEnvelope)).2.2.2 _ hsealed).2 ⟨_, rfl⟩
  exact ⟨⟨_, hstrange, rfl⟩, ⟨_, hsealed, hkind⟩, hdeclared, ⟨fault, hfault, htype⟩,
    hunfit.2 ⟨fault, hfault, htype⟩⟩

end Content

end LicenseDepot
