import LicenseDepot.Envelope
import Mathlib.Algebra.Ring.Nat
import Mathlib.Data.List.Basic

/-!
# Envelopes and their bytes

An envelope whose lengths can be held by the header is what its bytes are decoded to
(`decode_encode`), and no envelope begins with another one (`decode_of_isPrefix`). Nothing else is
decoded (`decode_eq_ok_iff_splits`), and bytes that are not are turned away for the first of four
things that can be wrong with them (`decode_eq_error_iff_flawed`).
-/

namespace LicenseDepot.Envelope

@[simp] theorem length_encodeLength (n : Nat) : (encodeLength n).length = 4 := rfl

/-- Four bytes hold any number below the limit. -/
theorem decodeLength_encodeLength {n : Nat} (h : n < lengthLimit) :
    decodeLength (encodeLength n) = n := by
  unfold lengthLimit at h
  simp only [decodeLength, encodeLength, List.foldl_cons, List.foldl_nil, UInt8.toNat_ofNat']
  omega

/-- A header with some letters, a version and two lengths, and then other bytes. -/
def withHeader (letters : Bytes) (found : UInt8) (n k : Nat) (body : Bytes) : Bytes :=
  letters ++ found :: (encodeLength n ++ (encodeLength k ++ body))

theorem encode_eq_withHeader (e : Envelope) :
    e.encode = withHeader magic version e.payload.length e.signature.length
      (e.payload ++ e.signature) := by
  simp [encode, withHeader, magic]

/-- The reader of envelopes on bytes with a header: letters, version and lengths are looked at in
this order. -/
theorem decode_withHeader {letters : Bytes} {found : UInt8} {n k : Nat} {body : Bytes}
    (h : letters.length = 4) (hn : n < lengthLimit) (hk : k < lengthLimit) :
    decode (withHeader letters found n k body) =
      if letters ≠ magic then .error (.magic letters)
      else if found ≠ version then .error (.version found)
      else if body.length ≠ n + k then .error .lengths
      else .ok ⟨body.take n, body.drop n⟩ := by
  obtain ⟨a, b, c, d, rfl⟩ := List.length_eq_four.1 h
  have hletters : (withHeader [a, b, c, d] found n k body).take 4 = [a, b, c, d] := rfl
  have hfound : ((withHeader [a, b, c, d] found n k body).drop 4).headD 0 = found := rfl
  have hfirst : ((withHeader [a, b, c, d] found n k body).drop 5).take 4 = encodeLength n := rfl
  have hsecond : ((withHeader [a, b, c, d] found n k body).drop 9).take 4 = encodeLength k := rfl
  have hbody : (withHeader [a, b, c, d] found n k body).drop headerSize = body := rfl
  have hlength : ¬ (withHeader [a, b, c, d] found n k body).length < headerSize := by
    simp only [withHeader, headerSize, List.length_append, List.length_cons, length_encodeLength]
    omega
  unfold decode
  rw [if_neg hlength]
  simp only [hletters, hfound, hfirst, hsecond, hbody, decodeLength_encodeLength hn,
    decodeLength_encodeLength hk]

/-- The bytes of an envelope are decoded to it. -/
theorem decode_encode {e : Envelope} (h : e.fits = true) : decode e.encode = .ok e := by
  obtain ⟨hpayload, hsignature⟩ :
      e.payload.length < lengthLimit ∧ e.signature.length < lengthLimit := by
    simpa [fits] using h
  rw [encode_eq_withHeader, decode_withHeader rfl hpayload hsignature, if_neg (not_not.2 rfl),
    if_neg (not_not.2 rfl), if_neg (not_not.2 List.length_append), List.take_left, List.drop_left]

/-- Whatever is decoded has a whole header of the right letters and version, and is as long as the
header says. -/
theorem length_of_decode {data : Bytes} {e : Envelope} (h : decode data = .ok e) :
    headerSize ≤ data.length ∧ data.length = headerSize
      + (decodeLength ((data.drop 5).take 4) + decodeLength ((data.drop 9).take 4)) ∧
      data.take 4 = magic := by
  unfold decode at h
  split at h
  · cases h
  split at h
  · cases h
  rename_i hlength hmagic
  simp only at h
  split at h
  · cases h
  split at h
  · cases h
  rename_i hbody
  rw [List.length_drop, not_not] at hbody
  have hheader : headerSize ≤ data.length := by omega
  exact ⟨hheader, by omega, not_not.1 hmagic⟩

/-- An envelope that is cut off is none. -/
theorem decode_of_isPrefix {data b : Bytes} {e : Envelope} (h : decode data = .ok e)
    (hb : b <+: data) (hne : b ≠ data) : ∃ fault, decode b = .error fault := by
  cases hdecode : decode b with
  | error fault => exact ⟨fault, rfl⟩
  | ok f =>
    exfalso
    obtain ⟨hlength, htotal, -⟩ := length_of_decode h
    obtain ⟨hlength', htotal', -⟩ := length_of_decode hdecode
    -- Both headers are whole, so they are the same one, and the lengths in it fit only one of both.
    obtain ⟨rest, rfl⟩ := hb
    have hfield : ∀ n, n + 4 ≤ headerSize →
        ((b ++ rest).drop n).take 4 = (b.drop n).take 4 := by
      intro n hn
      rw [List.drop_append_of_le_length (by omega), List.take_append_of_le_length]
      rw [List.length_drop]
      omega
    rw [hfield 5 (by decide), hfield 9 (by decide), List.length_append] at htotal
    have hnil : rest = [] := List.eq_nil_of_length_eq_zero (by omega)
    exact hne (by rw [hnil, List.append_nil])

/-! ### What is decoded, and what is not -/

/-- Four bytes spell a number below the limit, and that number is written as these bytes. -/
theorem exists_encodeLength {bytes : Bytes} (h : bytes.length = 4) :
    ∃ n < lengthLimit, encodeLength n = bytes := by
  obtain ⟨a, b, c, d, rfl⟩ := List.length_eq_four.1 h
  have ha := a.toNat_lt
  have hb := b.toNat_lt
  have hc := c.toNat_lt
  have hd := d.toNat_lt
  refine ⟨((a.toNat * 256 + b.toNat) * 256 + c.toNat) * 256 + d.toNat, ?_, ?_⟩
  · unfold lengthLimit
    omega
  · simp only [encodeLength, List.cons.injEq, and_true, ← UInt8.toNat_inj, UInt8.toNat_ofNat']
    omega

/-- Bytes that are long enough have a header. -/
theorem exists_withHeader {data : Bytes} (h : headerSize ≤ data.length) :
    ∃ letters found n k body, letters.length = 4 ∧ n < lengthLimit ∧ k < lengthLimit ∧
      data = withHeader letters found n k body := by
  unfold headerSize at h
  obtain ⟨found, rest, hrest⟩ := List.exists_cons_of_length_pos (l := data.drop 4)
    (by rw [List.length_drop]; omega)
  have hlength : rest.length + 1 = data.length - 4 := by
    rw [← List.length_cons, ← hrest, List.length_drop]
  have hfour : (rest.take 4).length = 4 := by
    rw [List.length_take]
    omega
  have hfour' : ((rest.drop 4).take 4).length = 4 := by
    rw [List.length_take, List.length_drop]
    omega
  obtain ⟨n, hn, hfirst⟩ := exists_encodeLength hfour
  obtain ⟨k, hk, hsecond⟩ := exists_encodeLength hfour'
  refine ⟨data.take 4, found, n, k, (rest.drop 4).drop 4, ?_, hn, hk, ?_⟩
  · rw [List.length_take]
    omega
  · rw [withHeader, hfirst, hsecond, List.take_append_drop, List.take_append_drop, ← hrest,
      List.take_append_drop]

theorem decode_of_short {data : Bytes} (h : data.length < headerSize) :
    decode data = .error (.truncated data.length) := by
  rw [decode, if_pos h]

/-- Some data are the letters, the version, the lengths of payload and signature as four bytes each,
the payload and the signature, and nothing more. -/
structure Splits (data payload signature : Bytes) : Prop where
  payload_lt : payload.length < 2 ^ 32
  signature_lt : signature.length < 2 ^ 32
  eq_append : data = Text.Utf8.encode "LICS".toList ++ [1] ++ encodeLength payload.length
    ++ encodeLength signature.length ++ payload ++ signature

/-- What is wrong with some data that are no envelope. -/
inductive Flawed : Bytes → Fault → Prop
  /-- There are too few bytes for a header. -/
  | truncated {data : Bytes} (h : data.length < 13) : Flawed data (.truncated data.length)
  /-- There are enough, and the letters are other ones. -/
  | magic {letters rest : Bytes} (hletters : letters.length = 4) (hrest : 9 ≤ rest.length)
      (hne : letters ≠ Text.Utf8.encode "LICS".toList) : Flawed (letters ++ rest) (.magic letters)
  /-- The letters are right, and the version is another one. -/
  | version {found : UInt8} {rest : Bytes} (hrest : 8 ≤ rest.length) (hne : found ≠ 1) :
      Flawed (Text.Utf8.encode "LICS".toList ++ found :: rest) (.version found)
  /-- The version is right, and the lengths add up to fewer or to more bytes than are there. -/
  | lengths {n k : Nat} {body : Bytes} (hn : n < 2 ^ 32) (hk : k < 2 ^ 32)
      (hne : body.length ≠ n + k) :
      Flawed (Text.Utf8.encode "LICS".toList ++ 1 :: (encodeLength n ++ (encodeLength k ++ body)))
        .lengths

theorem encode_letters : Text.Utf8.encode "LICS".toList = magic := by decide

theorem splits_iff_fits {data payload signature : Bytes} :
    Splits data payload signature ↔
      (Envelope.mk payload signature).fits = true ∧
        data = (Envelope.mk payload signature).encode := by
  have hencode : (Envelope.mk payload signature).encode = Text.Utf8.encode "LICS".toList ++ [1]
      ++ encodeLength payload.length ++ encodeLength signature.length ++ payload
      ++ signature := by
    rw [encode_letters]
    simp [encode, version]
  have hfits : (Envelope.mk payload signature).fits = true ↔
      payload.length < 2 ^ 32 ∧ signature.length < 2 ^ 32 := by
    rw [fits, Bool.and_eq_true, decide_eq_true_iff, decide_eq_true_iff]
    exact Iff.rfl
  rw [hfits, hencode]
  exact ⟨fun h => ⟨⟨h.payload_lt, h.signature_lt⟩, h.eq_append⟩, fun h => ⟨h.1.1, h.1.2, h.2⟩⟩

/-- Data are decoded to a payload and a signature just if they split into these. -/
theorem decode_eq_ok_iff_splits {data payload signature : Bytes} :
    decode data = .ok ⟨payload, signature⟩ ↔ Splits data payload signature := by
  rw [splits_iff_fits]
  constructor
  · intro h
    obtain ⟨letters, found, n, k, body, hletters, hn, hk, rfl⟩ :=
      exists_withHeader (length_of_decode h).1
    rw [decode_withHeader hletters hn hk] at h
    split at h
    · cases h
    split at h
    · cases h
    split at h
    · cases h
    rename_i hmagic hversion hbody
    rw [not_not] at hmagic hversion hbody
    cases h
    subst hmagic hversion
    have hpayload : (body.take n).length = n := by
      rw [List.length_take]
      omega
    have hsignature : (body.drop n).length = k := by
      rw [List.length_drop]
      omega
    refine ⟨by simp [fits, hpayload, hsignature, hn, hk], ?_⟩
    rw [encode_eq_withHeader]
    simp only [hpayload, hsignature, List.take_append_drop]
  · rintro ⟨hfits, rfl⟩
    exact decode_encode hfits

/-- Data that are not decoded are turned away for something that is wrong with them. -/
theorem flawed_of_decode {data : Bytes} {fault : Fault} (h : decode data = .error fault) :
    Flawed data fault := by
  by_cases hshort : data.length < headerSize
  · rw [decode_of_short hshort] at h
    cases h
    exact .truncated hshort
  obtain ⟨letters, found, n, k, body, hletters, hn, hk, rfl⟩ :=
    exists_withHeader (Nat.le_of_not_lt hshort)
  rw [decode_withHeader hletters hn hk] at h
  split at h
  · rename_i hne
    cases h
    refine .magic hletters ?_ (encode_letters ▸ hne)
    simp only [List.length_cons, List.length_append, length_encodeLength]
    omega
  split at h
  · rename_i hmagic hne
    cases h
    rw [not_not.1 hmagic, withHeader, ← encode_letters]
    refine .version ?_ hne
    simp only [List.length_append, length_encodeLength]
    omega
  split at h
  · rename_i hmagic hversion hne
    cases h
    rw [not_not.1 hmagic, not_not.1 hversion, withHeader, ← encode_letters]
    exact .lengths hn hk hne
  · cases h

theorem decode_of_magic {letters rest : Bytes} (hletters : letters.length = 4)
    (hrest : 9 ≤ rest.length) (hne : letters ≠ magic) :
    decode (letters ++ rest) = .error (.magic letters) := by
  have hlength : headerSize ≤ (letters ++ rest).length := by
    rw [List.length_append, headerSize]
    omega
  obtain ⟨letters', found, n, k, body, hletters', hn, hk, heq⟩ := exists_withHeader hlength
  rw [heq, decode_withHeader hletters' hn hk]
  rw [withHeader] at heq
  obtain ⟨rfl, -⟩ := List.append_inj heq (hletters.trans hletters'.symm)
  rw [if_pos hne]

theorem decode_of_version {found : UInt8} {rest : Bytes} (hrest : 8 ≤ rest.length)
    (hne : found ≠ version) : decode (magic ++ found :: rest) = .error (.version found) := by
  have hlength : headerSize ≤ (magic ++ found :: rest).length := by
    simp only [List.length_append, List.length_cons, headerSize, magic, List.length_nil]
    omega
  obtain ⟨letters', found', n, k, body, hletters', hn, hk, heq⟩ := exists_withHeader hlength
  rw [heq, decode_withHeader hletters' hn hk]
  rw [withHeader] at heq
  obtain ⟨rfl, hcons⟩ := List.append_inj heq hletters'.symm
  obtain ⟨rfl, -⟩ := List.cons.inj hcons
  rw [if_neg (not_not.2 rfl), if_pos hne]

theorem decode_of_lengths {n k : Nat} {body : Bytes} (hn : n < lengthLimit) (hk : k < lengthLimit)
    (hne : body.length ≠ n + k) :
    decode (withHeader magic version n k body) = .error .lengths := by
  rw [decode_withHeader rfl hn hk, if_neg (not_not.2 rfl), if_neg (not_not.2 rfl), if_pos hne]

/-- Data are turned away just for the first thing that is wrong with them. -/
theorem decode_eq_error_iff_flawed {data : Bytes} {fault : Fault} :
    decode data = .error fault ↔ Flawed data fault := by
  refine ⟨flawed_of_decode, fun h => ?_⟩
  cases h with
  | truncated hshort => exact decode_of_short hshort
  | magic hletters hrest hne => exact decode_of_magic hletters hrest (encode_letters ▸ hne)
  | version hrest hne =>
    rw [encode_letters]
    exact decode_of_version hrest hne
  | lengths hn hk hne =>
    rw [encode_letters]
    exact decode_of_lengths hn hk hne

/-- Data split in one way at most. -/
theorem Splits.unique {data p s p' s' : Bytes} (h : Splits data p s) (h' : Splits data p' s') :
    p = p' ∧ s = s' := by
  have heq := (decode_eq_ok_iff_splits.2 h).symm.trans (decode_eq_ok_iff_splits.2 h')
  cases heq
  exact ⟨rfl, rfl⟩

/-- Nothing that splits begins with something else that does. -/
theorem Splits.eq_of_isPrefix {data b p s p' s' : Bytes} (h : Splits data p s)
    (h' : Splits b p' s') (hb : b <+: data) : b = data := by
  by_contra hne
  obtain ⟨fault, hfault⟩ := decode_of_isPrefix (decode_eq_ok_iff_splits.2 h) hb hne
  rw [decode_eq_ok_iff_splits.2 h'] at hfault
  cases hfault

end LicenseDepot.Envelope
