import LicenseDepot.Failure
import LicenseDepot.Proofs.Content.RoundTrip
import LicenseDepot.Proofs.Envelope

/-!
# Files that are cut off

A file that has been written in part is a strict prefix of a whole one. Below the mark of documents
it is too short for an envelope; past it, a document that is cut off is not text or not well formed,
and an envelope that is cut off is too short for its header or for the lengths in it. Main
statement: `Truncated.rejected`.
-/

namespace LicenseDepot

open Text Markup LicenseDocument

/-- The bytes that a whole file begins with and goes on after. -/
inductive Truncated (b : Bytes) : Prop
  | document {l : License} {s : List Char} (h : l.document = .ok s) (hb : b <+: Utf8.encode s)
    (hne : b ≠ Utf8.encode s)
  | envelope {data : Bytes} {e : Envelope} (h : Envelope.decode data = .ok e) (hb : b <+: data)
    (hne : b ≠ data)

/-- How content that is no licence is turned away: it ends inside of a character, or it is no
licence for a reason that is reported as such. -/
def Content.Rejects (b : Bytes) : Prop :=
  (∃ fault, Content.ofBytes b = .error fault ∧ fault.defect = .ending ∧ ∀ s, b ≠ Utf8.encode s) ∨
    ∃ c fault, Content.ofBytes b = .ok c ∧ c.toLicense = .error fault ∧
      fault.typeName = "LicenseDecodeError"

namespace Content

theorem rejects_of_envelope {b : Bytes} (hsniff : ContentKind.sniff b = .binary)
    {fault : Envelope.Fault} (h : Envelope.decode b = .error fault) : Rejects b := by
  refine .inr ⟨.binary b, .envelope fault, ?_, ?_, rfl⟩
  · rw [ofBytes, hsniff]
  · rw [toLicense, readSealed, h]

theorem sniff_eq_binary_iff {b : Bytes} :
    ContentKind.sniff b = .binary ↔ ¬ ContentKind.documentMark <+: b := by
  rw [ContentKind.sniff, ← List.isPrefixOf_iff_prefix]
  split
  · simp_all
  · simp_all

/-- Envelopes do not begin like documents. -/
theorem not_documentMark_of_decode {data : Bytes} {e : Envelope}
    (h : Envelope.decode data = .ok e) :
    ¬ ContentKind.documentMark <+: data := by
  rintro ⟨rest, rfl⟩
  have hmagic := (Envelope.length_of_decode h).2.2
  exact absurd hmagic (by simp [ContentKind.documentMark, Envelope.magic])

theorem sniff_of_decode {data : Bytes} {e : Envelope} (h : Envelope.decode data = .ok e) :
    ContentKind.sniff data = .binary :=
  sniff_eq_binary_iff.2 (not_documentMark_of_decode h)

/-- The bytes of an envelope are told to be no text, and are passed on as they are. -/
theorem ofBytes_of_decode {data : Bytes} {e : Envelope} (h : Envelope.decode data = .ok e) :
    ofBytes data = .ok (.binary data) := by
  rw [ofBytes, sniff_of_decode h]

/-- What is left of an envelope that is cut off is no licence. -/
theorem rejects_of_prefix_envelope {data b : Bytes} {e : Envelope}
    (h : Envelope.decode data = .ok e) (hb : b <+: data) (hne : b ≠ data) : Rejects b := by
  obtain ⟨fault, hfault⟩ := Envelope.decode_of_isPrefix h hb hne
  refine rejects_of_envelope (sniff_eq_binary_iff.2 fun hmark => ?_) hfault
  exact not_documentMark_of_decode h (hmark.trans hb)

theorem headerMark_prefix_of_write {t : Terms} {s : List Char} (h : write t = .ok s) :
    "<?xml ".toList <+: s := by
  obtain ⟨-, rfl⟩ := write_eq_ok_iff.1 h
  have hdeclaration : "<?xml ".toList <+: declaration := by decide
  exact hdeclaration.trans (List.prefix_append _ _)

/-- What is left of a document that is cut off is no licence. -/
theorem rejects_of_prefix_document {t : Terms} {s : List Char} (h : write t = .ok s) {b : Bytes}
    (hb : b <+: Utf8.encode s) (hne : b ≠ Utf8.encode s) : Rejects b := by
  by_cases hmark : ContentKind.documentMark <+: b
  · have hsniff : ContentKind.sniff b = .text := by
      rw [ContentKind.sniff, if_pos (List.isPrefixOf_iff_prefix.2 hmark)]
    rcases Utf8.decode_of_isPrefix hb with ⟨p, hp, rfl, hdecode⟩ | ⟨hcut, fault, hdecode, hending⟩
    · have hlength : 6 ≤ p.length := by
        have hbytes : ∀ k < 6, (Utf8.encode ("<?xml ".toList.take k)).length < 6 := by decide
        by_contra hshort
        have hmark' : p <+: "<?xml ".toList :=
          List.prefix_of_prefix_length_le hp (headerMark_prefix_of_write h)
            (Nat.le_of_lt (Nat.lt_of_not_le hshort))
        have hfew := hbytes p.length (Nat.lt_of_not_le hshort)
        rw [← List.prefix_iff_eq_take.1 hmark'] at hfew
        exact absurd hmark.length_le (Nat.not_le_of_lt hfew)
      have hps : p ≠ s := fun heq => hne (by rw [heq])
      obtain ⟨hwritable, rfl⟩ := write_eq_ok_iff.1 h
      obtain ⟨fault, hfault⟩ := read_of_isPrefix (isWritable_termsElement hwritable) hp hps hlength
      refine .inr ⟨.text p, .malformed fault, ?_, ?_, rfl⟩
      · rw [ofBytes, hsniff, hdecode]
        rfl
      · rw [toLicense, readTerms, hfault]
        rfl
    · refine .inl ⟨fault, ?_, hending, hcut⟩
      rw [ofBytes, hsniff, hdecode]
      rfl
  · -- Too short for the mark of documents, and so all the more for the header of an envelope.
    obtain ⟨rest, hrest⟩ := exists_encode_write h
    have hshort : b.length < Envelope.headerSize := by
      rw [hrest] at hb
      rcases List.prefix_or_prefix_of_prefix hb (List.prefix_append _ rest) with hbm | hmb
      · exact lt_of_le_of_lt hbm.length_le (by decide)
      · exact absurd hmb hmark
    have hdecode : Envelope.decode b = .error (.truncated b.length) := by
      rw [Envelope.decode, if_pos hshort]
    exact rejects_of_envelope (sniff_eq_binary_iff.2 hmark) hdecode

end Content

/-- A file that has been written in part is turned away. -/
theorem Truncated.rejected {b : Bytes} (h : Truncated b) : Content.Rejects b := by
  cases h with
  | document h hb hne => exact Content.rejects_of_prefix_document h hb hne
  | envelope h hb hne => exact Content.rejects_of_prefix_envelope h hb hne

end LicenseDepot
