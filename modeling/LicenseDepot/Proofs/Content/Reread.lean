import LicenseDepot.Failure
import LicenseDepot.Proofs.Content.Truncation
import LicenseDepot.Proofs.LicenseDocument.Legal

/-!
# Licences that are read back

A licence reads back if the file that is written for it holds the licence as it is read: the same
terms, with the expiry date as far as its ISO form holds it. All plain licences do, and so do those
that were sealed or read before. What has been read is read again as it is: no reader gives a zone
with rules or an offset that is lost, and a signed licence is written as the bytes it came in. Main
statements: `asRead_of_ofFileBytes`, `readsBack_of_ofFileBytes` and `readsBack_of_withSignature`.
-/

namespace LicenseDepot

open Text LicenseDocument

namespace LicenseDocument

/-- The terms that a document states are read again as they are. -/
theorem termsAsRead_of_ofElement {root : Markup.Element} {t : Terms} (h : ofElement root = .ok t) :
    termsAsRead t = t := by
  have hstated := (statedBy_of_ofElement h).expiration
  obtain ⟨id, type, licensee, features, expiration, maxUsers⟩ := t
  cases expiration with
  | none => rfl
  | some e =>
    obtain ⟨s, hs⟩ := hstated e rfl
    rw [termsAsRead, Option.map_some, Timestamp.asRead_of_read hs]

theorem not_losesExpiration_of_termsAsRead {t : Terms} (h : termsAsRead t = t) :
    ¬ LosesExpiration t := by
  rw [← same_termsAsRead_iff, h]
  exact t.same_refl

end LicenseDocument

namespace Content

variable {t : Terms} {data : Bytes} {l : License}

theorem readTerms_eq_ok_iff {s : List Char} :
    readTerms s = .ok t ↔ ∃ root, Markup.Element.read s = .ok root ∧ ofElement root = .ok t := by
  unfold readTerms
  split
  · simp [*]
  · simp [*]
  · simp [*, mapError_eq_ok_iff]

theorem termsAsRead_of_readTerms {s : List Char} (h : readTerms s = .ok t) :
    termsAsRead t = t := by
  obtain ⟨root, -, hroot⟩ := readTerms_eq_ok_iff.1 h
  exact termsAsRead_of_ofElement hroot

/-- Whatever is read from an envelope is signed with all its bytes. -/
theorem readSealed_eq_ok_iff :
    readSealed data = .ok l ↔ ∃ e t hne, Envelope.decode data = .ok e ∧
      readPayload e.payload = .ok t ∧ l = .signed t data hne := by
  unfold readSealed
  cases hdecode : Envelope.decode data with
  | error fault => simp
  | ok e =>
    have hne : data ≠ [] := by
      rintro rfl
      cases hdecode
    constructor
    · intro h
      obtain ⟨u, hu, h⟩ := bind_eq_ok_iff.1 h
      rw [License.ofSealed?, dif_pos hne] at h
      cases h
      exact ⟨e, u, hne, rfl, hu, rfl⟩
    · rintro ⟨e', u, hne', heq, hu, rfl⟩
      cases heq
      refine bind_eq_ok_iff.2 ⟨u, hu, ?_⟩
      rw [License.ofSealed?, dif_pos hne]

/-- The document of some terms is read from an envelope as it is read by itself. -/
theorem readPayload_encode_write {s : List Char} (h : LicenseDocument.write t = .ok s) :
    readPayload (Utf8.encode s) = .ok (termsAsRead t) := by
  rw [readPayload, Utf8.decode_encode]
  simp only [readTerms_write h]

end Content

namespace License

variable {t : Terms} {data : Bytes} {l m : License}

/-- The licence that some bytes of a file hold. -/
def ofFileBytes (data : Bytes) : Except ReadFault License :=
  match Content.ofBytes data with
  | .error e => .error (.text e)
  | .ok content => content.toLicense.mapError .content

theorem ofFileBytes_eq_ok_iff :
    ofFileBytes data = .ok l ↔ ∃ c, Content.ofBytes data = .ok c ∧ c.toLicense = .ok l := by
  unfold ofFileBytes
  cases Content.ofBytes data with
  | error e => simp
  | ok c => simp [mapError_eq_ok_iff]

/-- Whether the file that is written for a licence holds that licence as it is read. -/
def ReadsBack (l : License) : Prop :=
  ∀ data, l.fileBytes = .ok data → ofFileBytes data = .ok l.asRead

theorem readsBack_plain (t : Terms) : (License.plain t).ReadsBack := by
  intro data hdata
  obtain ⟨s, hs, rfl⟩ := map_eq_ok_iff.1 hdata
  exact ofFileBytes_eq_ok_iff.2
    ⟨.text s, Content.ofBytes_encode_write hs, Content.toLicense_write hs⟩

theorem readsBack_signed {hne : data ≠ []}
    (h : Content.readSealed data = .ok (.signed (termsAsRead t) data hne)) :
    (License.signed t data hne).ReadsBack := by
  intro data' hdata
  cases hdata
  obtain ⟨e, -, -, hdecode, -⟩ := Content.readSealed_eq_ok_iff.1 h
  exact ofFileBytes_eq_ok_iff.2 ⟨.binary data, Content.ofBytes_of_decode hdecode, h⟩

theorem termsAsRead_of_readPayload {payload : Bytes}
    (h : Content.readPayload payload = .ok t) : termsAsRead t = t := by
  unfold Content.readPayload at h
  split at h
  · cases h
  · split at h
    · cases h
    · exact Content.termsAsRead_of_readTerms h

/-- A licence that has been converted is read again as it is. -/
theorem asRead_of_toLicense {c : Content} (h : c.toLicense = .ok l) : l.asRead = l := by
  rw [asRead_eq_self_iff]
  cases c with
  | text s =>
    obtain ⟨t, ht, rfl⟩ := map_eq_ok_iff.1 h
    exact Content.termsAsRead_of_readTerms ht
  | binary data =>
    have hsealed : Content.readSealed data = .ok l := h
    obtain ⟨e, t, hne, -, ht, rfl⟩ := Content.readSealed_eq_ok_iff.1 hsealed
    exact termsAsRead_of_readPayload ht

/-- A licence that has been converted reads back. -/
theorem readsBack_of_toLicense {c : Content} (h : c.toLicense = .ok l) : l.ReadsBack := by
  have hself := asRead_eq_self_iff.1 (asRead_of_toLicense h)
  cases c with
  | text s =>
    obtain ⟨t, ht, rfl⟩ := map_eq_ok_iff.1 h
    exact readsBack_plain t
  | binary data =>
    have hsealed : Content.readSealed data = .ok l := h
    obtain ⟨e, t, hne, -, -, rfl⟩ := Content.readSealed_eq_ok_iff.1 hsealed
    apply readsBack_signed
    rw [show termsAsRead t = t from hself]
    exact hsealed

/-- A licence that has been read from a file is read again as it is. -/
theorem asRead_of_ofFileBytes (h : ofFileBytes data = .ok l) : l.asRead = l := by
  obtain ⟨c, -, hc⟩ := ofFileBytes_eq_ok_iff.1 h
  exact asRead_of_toLicense hc

/-- A licence that has been read from a file reads back. -/
theorem readsBack_of_ofFileBytes (h : ofFileBytes data = .ok l) : l.ReadsBack := by
  obtain ⟨c, -, hc⟩ := ofFileBytes_eq_ok_iff.1 h
  exact readsBack_of_toLicense hc

/-- The bytes of a signed licence that has been read are those it has been read from. -/
theorem sealed?_of_ofFileBytes {bytes : Bytes} (h : ofFileBytes data = .ok l)
    (hsealed : l.sealed? = some bytes) : data = bytes := by
  obtain ⟨c, hbytes, hc⟩ := ofFileBytes_eq_ok_iff.1 h
  cases c with
  | text s =>
    obtain ⟨t, -, rfl⟩ := map_eq_ok_iff.1 hc
    cases hsealed
  | binary content =>
    have hread : Content.readSealed content = .ok l := hc
    obtain ⟨e, t, hne, -, -, rfl⟩ := Content.readSealed_eq_ok_iff.1 hread
    cases hsealed
    unfold Content.ofBytes at hbytes
    split at hbytes
    · obtain ⟨s, -, heq⟩ := map_eq_ok_iff.1 hbytes
      cases heq
    · cases hbytes
      rfl

/-- A signed licence is written as the bytes it came in. -/
theorem fileBytes_of_sealed? {bytes : Bytes} (h : l.sealed? = some bytes) :
    l.fileBytes = .ok bytes := by
  cases l with
  | plain t => cases h
  | signed t data hne =>
    cases h
    rfl

/-- A licence that has been sealed reads back, if the envelope has room for its document and its
signature. -/
theorem readsBack_of_withSignature {signature : Bytes}
    (hfits : ∀ e, l.envelope signature = .ok e → e.fits = true)
    (h : l.withSignature signature = .ok m) : m.ReadsBack := by
  obtain ⟨e, he, rfl⟩ := map_eq_ok_iff.1 h
  refine readsBack_signed (Content.readSealed_eq_ok_iff.2 ⟨e, termsAsRead l.terms, _, ?_, ?_, rfl⟩)
  · exact Envelope.decode_encode (hfits e he)
  · obtain ⟨s, hs, rfl⟩ := map_eq_ok_iff.1 he
    exact Content.readPayload_encode_write hs

end License

end LicenseDepot
