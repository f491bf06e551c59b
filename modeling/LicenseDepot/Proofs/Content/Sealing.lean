import LicenseDepot.Proofs.Content.Reread

/-!
# Sealing and converting

A licence is sealed by putting its document and a signature into an envelope. Two formats are nested
there, and both are read back: the envelope opens to the document and the signature, whatever bytes
this has, and the document to the terms. So the bytes are converted to the licence that was sealed.
Sealing uses nothing but the terms of a licence, so a licence that is sealed again is sealed as if
for the first time. Main statement: `sealed_round_trip`.
-/

namespace LicenseDepot

open Text LicenseDocument

namespace License

variable {l m : License} {s : List Char} {signature : Bytes}

/-- What a licence is sealed as depends on its terms alone. -/
theorem withSignature_of_terms_eq (h : m.terms = l.terms) (signature : Bytes) :
    m.withSignature signature = l.withSignature signature := by
  unfold withSignature envelope document
  rw [h]

/-- A licence whose document can be written is sealed with it. -/
theorem withSignature_of_document (h : l.document = .ok s) (signature : Bytes) :
    l.withSignature signature = .ok (.signed l.terms (Envelope.encode ⟨Utf8.encode s, signature⟩)
      (encode_envelope_ne_nil _)) := by
  unfold withSignature envelope
  rw [h]
  rfl

/-- The bytes that a licence is sealed as are converted to the sealed licence as it is read. -/
theorem toLicense_encode_write (h : l.document = .ok s) (signature : Bytes)
    (hfits : (⟨Utf8.encode s, signature⟩ : Envelope).fits = true) :
    Envelope.decode (Envelope.encode ⟨Utf8.encode s, signature⟩)
        = .ok ⟨Utf8.encode s, signature⟩ ∧
      (Content.binary (Envelope.encode ⟨Utf8.encode s, signature⟩)).toLicense
        = .ok (.signed (termsAsRead l.terms) (Envelope.encode ⟨Utf8.encode s, signature⟩)
          (encode_envelope_ne_nil _)) := by
  have hdecode := Envelope.decode_encode hfits
  exact ⟨hdecode, Content.readSealed_eq_ok_iff.2
    ⟨_, _, _, hdecode, Content.readPayload_encode_write h, rfl⟩⟩

/-- A licence that has been sealed is converted back from its bytes to the sealed licence as it is
read. This is the same licence, unless its expiry date is lost. The bytes are told to be no text and
open to the document of the licence and the signature; without them, what is converted is the
licence that the document is converted to. If the sealed licence is sealed once more, with whatever
signature, the outcome is that of sealing the original with this signature. -/
theorem sealed_round_trip (h : l.document = .ok s)
    (hpayload : (Utf8.encode s).length < Envelope.lengthLimit)
    (hsignature : signature.length < Envelope.lengthLimit) :
    ∃ (m k : License) (data : Bytes), l.withSignature signature = .ok m ∧
      m.sealed? = some data ∧ m.terms = l.terms ∧
      ContentKind.sniff data = .binary ∧ Content.ofBytes data = .ok (.binary data) ∧
      Envelope.decode data = .ok ⟨Utf8.encode s, signature⟩ ∧
      (Content.binary data).toLicense = .ok k ∧ k = m.asRead ∧ k.sealed? = some data ∧
      (k.same m = true ↔ ¬ LosesExpiration l.terms) ∧
      (Content.text s).toLicense = .ok k.unsigned ∧
      (k.unsigned.same m.unsigned = true ↔ ¬ LosesExpiration l.terms) ∧
      ∀ other, m.withSignature other = l.withSignature other := by
  obtain ⟨hdecode, hread⟩ := toLicense_encode_write h signature
    (by simp [Envelope.fits, hpayload, hsignature])
  exact ⟨_, _, _, withSignature_of_document h signature, rfl, rfl, Content.sniff_of_decode hdecode,
    Content.ofBytes_of_decode hdecode, hdecode, hread, rfl, rfl,
    same_asRead_iff (.signed l.terms (Envelope.encode ⟨Utf8.encode s, signature⟩)
      (encode_envelope_ne_nil _)),
    Content.toLicense_write h, same_asRead_iff (.plain l.terms), withSignature_of_terms_eq rfl⟩

/-- A signed licence to be sealed again, with texts that have to be escaped and an offset of one
second. -/
def resealed : License :=
  .signed
    { Content.awkwardTerms with
      expiration := Content.awkwardTerms.expiration.map fun t =>
        { t with zone := some (.fixed ⟨-1000000, by decide⟩) } }
    [0] (by decide)

/-- The licence is sealed again with a signature that looks like an envelope itself. -/
theorem sealed_round_trip_resealed :
    ∃ (s : List Char) (m k : License) (data : Bytes), resealed.document = .ok s ∧
      ¬ LosesExpiration resealed.terms ∧ (Utf8.encode s).length < Envelope.lengthLimit ∧
      (Envelope.encode ⟨[], []⟩).length < Envelope.lengthLimit ∧
      resealed.withSignature (Envelope.encode ⟨[], []⟩) = .ok m ∧ m.sealed? = some data ∧
      Envelope.decode data = .ok ⟨Utf8.encode s, Envelope.encode ⟨[], []⟩⟩ ∧
      (Content.binary data).toLicense = .ok k ∧ k.same m = true := by
  have hwritable : TermsWritable resealed.terms :=
    Content.termsWritable_awkwardTerms.withExpiration _
  have hs : resealed.document = .ok (declaration ++ (termsElement resealed.terms).render) :=
    write_eq_ok_iff.2 ⟨hwritable, rfl⟩
  have hkept : ¬ LosesExpiration resealed.terms := by decide
  have hpayload : (Utf8.encode (declaration ++ (termsElement resealed.terms).render)).length
      < Envelope.lengthLimit := by decide +kernel
  have hsignature : (Envelope.encode ⟨[], []⟩).length < Envelope.lengthLimit := by decide
  obtain ⟨m, k, data, hm, hdata, -, -, -, hdecode, hread, -, -, hsame, -⟩ :=
    sealed_round_trip hs hpayload hsignature
  exact ⟨_, m, k, data, hs, hkept, hpayload, hsignature, hm, hdata, hdecode, hread,
    hsame.2 hkept⟩

/-- A licence that expires at a time that comes twice is not the same when it has been sealed and
converted back, though its offset is two hours. -/
theorem sealed_not_same_repeatedTerms :
    ∃ (m k : License) (data : Bytes),
      (License.plain Content.repeatedTerms).withSignature [] = .ok m ∧ m.sealed? = some data ∧
      (∀ e ∈ m.terms.expiration, ¬ e.IsSubSecond) ∧
      (Content.binary data).toLicense = .ok k ∧ k.same m = false := by
  have hwritable : TermsWritable Content.repeatedTerms :=
    Content.termsWritable_awkwardTerms.withExpiration _
  have hs : (License.plain Content.repeatedTerms).document
      = .ok (declaration ++ (termsElement Content.repeatedTerms).render) :=
    write_eq_ok_iff.2 ⟨hwritable, rfl⟩
  have hlost : LosesExpiration Content.repeatedTerms := by decide
  obtain ⟨-, hread⟩ := toLicense_encode_write hs [] (by decide +kernel)
  refine ⟨_, _, _, withSignature_of_document hs [], rfl, by decide, hread, ?_⟩
  rw [Bool.eq_false_iff]
  exact fun hsame => (same_asRead_iff (.signed Content.repeatedTerms _
    (encode_envelope_ne_nil _))).1 hsame hlost

end License

end LicenseDepot
