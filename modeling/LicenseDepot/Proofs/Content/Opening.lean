import LicenseDepot.Proofs.Content.Reread

/-!
# Opening envelopes

The reader of envelopes is exact: what it opens is what splits into a header, a payload and a
signature, and everything else it turns away with the one failure that callers know, for the first
thing that is wrong. From this follow what the rest of the program relies on: data split in one way
at most, an envelope neither begins nor goes on to be another one, none of them looks like a
document, and a signed licence keeps all its bytes. Main statement: `opens_exactly`.
-/

namespace LicenseDepot

open Text Envelope

namespace Content

variable {data : Bytes} {c : Content} {l : License}

/-- A licence that has been converted is signed with the data it comes from, or plain if it comes
from a text. -/
theorem sealed?_of_toLicense (h : c.toLicense = .ok l) :
    (∃ s, c = .text s ∧ l.sealed? = none) ∨ ∃ data, c = .binary data ∧ l.sealed? = some data := by
  cases c with
  | text s =>
    obtain ⟨t, -, rfl⟩ := map_eq_ok_iff.1 h
    exact .inl ⟨s, rfl, rfl⟩
  | binary data =>
    have hread : readSealed data = .ok l := h
    obtain ⟨e, t, hne, -, -, rfl⟩ := readSealed_eq_ok_iff.1 hread
    exact .inr ⟨data, rfl, rfl⟩

/-- Data that are turned away by the reader of envelopes are turned away as content, as what cannot
be decoded. -/
theorem toLicense_of_flawed {fault : Envelope.Fault} (h : Flawed data fault) :
    (Content.binary data).toLicense = .error (.envelope fault) ∧
      (Content.Fault.envelope fault).typeName = "LicenseDecodeError" := by
  refine ⟨?_, rfl⟩
  rw [toLicense, readSealed, decode_eq_error_iff_flawed.2 h]

/-- Data are opened to a payload and a signature just if they split into these; all other data have
a flaw and are turned away for it, as what cannot be decoded. No data split in two ways, and none
that split begin with others that do, or go on to be others that do. Data that split are told to be
no text, and they are the sealed bytes of whatever signed licence they are converted to, as only
they can be. -/
theorem opens_exactly (data : Bytes) :
    (∀ payload signature : Bytes,
      decode data = .ok ⟨payload, signature⟩ ↔ Splits data payload signature) ∧
    ((∀ payload signature, ¬ Splits data payload signature) → ∃ fault, Flawed data fault ∧
      decode data = .error fault ∧ (Content.binary data).toLicense = .error (.envelope fault) ∧
      (Content.Fault.envelope fault).typeName = "LicenseDecodeError") ∧
    ∀ payload signature, Splits data payload signature →
      (∀ payload' signature', Splits data payload' signature' →
        payload' = payload ∧ signature' = signature) ∧
      (∀ other payload' signature', Splits other payload' signature' →
        other <+: data ∨ data <+: other → other = data) ∧
      ContentKind.sniff data = .binary ∧ ofBytes data = .ok (.binary data) ∧
      (∀ l, (Content.binary data).toLicense = .ok l → l.sealed? = some data) ∧
      ∀ c l, toLicense c = .ok l → l.sealed? = some data → c = .binary data := by
  refine ⟨fun _ _ => decode_eq_ok_iff_splits, fun hnone => ?_, fun payload signature h => ?_⟩
  · cases hdecode : decode data with
    | ok e => exact absurd (decode_eq_ok_iff_splits.1 hdecode) (hnone _ _)
    | error fault =>
      have hflawed := decode_eq_error_iff_flawed.1 hdecode
      exact ⟨fault, hflawed, rfl, toLicense_of_flawed hflawed⟩
  · have hopen := decode_eq_ok_iff_splits.2 h
    refine ⟨fun _ _ h' => h'.unique h, fun other _ _ h' hprefix => ?_, sniff_of_decode hopen,
      ofBytes_of_decode hopen, fun l hl => ?_, fun c l hl hsealed => ?_⟩
    · rcases hprefix with hprefix | hprefix
      · exact h.eq_of_isPrefix h' hprefix
      · exact (h'.eq_of_isPrefix h hprefix).symm
    · obtain ⟨s, hs, -⟩ | ⟨data', hdata, hsealed⟩ := sealed?_of_toLicense hl
      · cases hs
      · cases hdata
        exact hsealed
    · obtain ⟨s, -, hnone⟩ | ⟨data', rfl, hdata⟩ := sealed?_of_toLicense hl
      · rw [hnone] at hsealed
        cases hsealed
      · rw [hdata] at hsealed
        cases hsealed
        rfl

/-- The bytes of an envelope without payload and with a signature of one byte. -/
def signatureOnly : Bytes :=
  [0x4C, 0x49, 0x43, 0x53, 1, 0, 0, 0, 0, 0, 0, 0, 1, 0x58]

theorem splits_signatureOnly : Splits signatureOnly [] [0x58] :=
  ⟨by decide, by decide, by decide⟩

/-- An empty payload is opened; without its last byte the envelope is turned away for its lengths.
What is opened splits in no other way. -/
theorem opens_exactly_signatureOnly :
    Splits signatureOnly [] [0x58] ∧ decode signatureOnly = .ok ⟨[], [0x58]⟩ ∧
      ContentKind.sniff signatureOnly = .binary ∧
      (∀ payload signature, ¬ Splits signatureOnly.dropLast payload signature) ∧
      ∃ fault, decode signatureOnly.dropLast = .error fault ∧ fault = .lengths := by
  obtain ⟨hopen, -, hsplits⟩ := opens_exactly signatureOnly
  obtain ⟨-, hother, hsniff, -⟩ := hsplits _ _ splits_signatureOnly
  have hnone : ∀ payload signature, ¬ Splits signatureOnly.dropLast payload signature := by
    intro payload signature h
    have heq := hother _ _ _ h (.inl (List.dropLast_prefix _))
    exact absurd heq (by decide)
  obtain ⟨fault, -, hfault, -⟩ := (opens_exactly signatureOnly.dropLast).2.1 hnone
  refine ⟨splits_signatureOnly, (hopen _ _).2 splits_signatureOnly, hsniff, hnone, fault, hfault,
    ?_⟩
  have hlengths : decode signatureOnly.dropLast = .error .lengths := by decide
  rw [hlengths] at hfault
  cases hfault
  rfl

end Content

end LicenseDepot
