import LicenseDepot.Timestamp.Iso
import LicenseDepot.Proofs.Outcome
import LicenseDepot.Proofs.Timestamp.AsRead
import LicenseDepot.Proofs.Text.Utf8
import Mathlib.Algebra.Ring.Nat
import Mathlib.Data.List.TakeWhile

/-!
# Reading back the ISO form of a timestamp

The fields of the ISO form have fixed widths, so in bytes it is made of runs of digits
(`digitBytes`) and the marks between them. Each reader of a part is shown to take its run and to
leave what follows. Main statements: the ISO form of a timestamp is read back as the date and the
time that it shows, at the offset that it has or in universal time for one below a second
(`read_iso`), and whatever text a timestamp has been read from, its own ISO form is read back as it
(`asRead_of_read`).
-/

namespace LicenseDepot

namespace Timestamp

open Text

/-- The ASCII digit of a value below ten, as a byte. -/
def digitByte (k : Nat) : UInt8 :=
  UInt8.ofNat (48 + k)

/-- The last `width` decimal digits of a number, as bytes. -/
def digitBytes : (width : Nat) → (n : Nat) → Bytes
  | 0, _ => []
  | width + 1, n => digitBytes width (n / 10) ++ [digitByte (n % 10)]

@[simp] theorem length_digitBytes (width n : Nat) : (digitBytes width n).length = width := by
  induction width generalizing n with
  | zero => rfl
  | succ width ih => simp [digitBytes, ih]

theorem digit?_digitByte : ∀ k, k < 10 → digit? (digitByte k) = some k := by
  decide

theorem exists_of_mem_digitBytes {width n : Nat} {b : UInt8} (h : b ∈ digitBytes width n) :
    ∃ k, k < 10 ∧ b = digitByte k := by
  induction width generalizing n with
  | zero => simp [digitBytes] at h
  | succ width ih =>
    rw [digitBytes, List.mem_append, List.mem_singleton] at h
    rcases h with h | h
    · exact ih h
    · exact ⟨n % 10, Nat.mod_lt _ (by decide), h⟩

/-- Digits of a width are read as the number modulo the power of ten of that width. -/
theorem number?_digitBytes (width n : Nat) :
    number? (digitBytes width n) = some (n % 10 ^ width) := by
  induction width generalizing n with
  | zero => simp [digitBytes, number?, Nat.mod_one]
  | succ width ih =>
    have hfront := ih (n / 10)
    rw [number?] at hfront
    rw [digitBytes, number?, List.foldlM_append, hfront]
    simp only [Option.bind_eq_bind, Option.bind_some, List.foldlM_cons, List.foldlM_nil,
      digit?_digitByte (n % 10) (Nat.mod_lt _ (by decide)), Option.map_some]
    rw [Nat.pow_succ', Nat.mod_mul]
    simp only [Option.pure_def, Option.some.injEq]
    omega

/-- A field of a width is read as its number, whatever follows it. -/
theorem digits?_digitBytes (width : Nat) {n : Nat} (h : n < 10 ^ width) (rest : Bytes) :
    digits? width (digitBytes width n ++ rest) = some (n, rest) := by
  have htake : (digitBytes width n ++ rest).take width = digitBytes width n := by
    rw [List.take_append_of_le_length (by simp)]
    exact List.take_of_length_le (by simp)
  have hdrop : (digitBytes width n ++ rest).drop width = rest := by
    rw [List.drop_append_of_le_length (by simp), List.drop_of_length_le (by simp), List.nil_append]
  rw [digits?, if_pos (by simp), htake, hdrop, number?_digitBytes, Nat.mod_eq_of_lt h]
  rfl

theorem encodeNat_digitChar : ∀ k, k < 10 →
    Utf8.encodeNat (Nat.digitChar k).toNat = [digitByte k] := by
  decide

/-- A number that is padded to a width of at least two ends with its last digit. -/
theorem padded_succ (width n : Nat) :
    padded (width + 2) n = padded (width + 1) (n / 10) ++ [Nat.digitChar (n % 10)] := by
  unfold padded
  rw [Nat.toDigits_eq_if (n := n) (by decide)]
  by_cases hn : n < 10
  · rw [if_pos hn, Nat.div_eq_of_lt hn, Nat.mod_eq_of_lt hn, Nat.toDigits_zero]
    simp only [List.length_singleton, Nat.add_sub_cancel, show width + 2 - 1 = width + 1 by omega]
    rw [List.replicate_succ', List.append_assoc]
  · rw [if_neg hn]
    simp only [List.length_append, List.length_singleton, Nat.add_sub_add_right,
      List.append_assoc, show width + 2 = width + 1 + 1 by rfl]

/-- The numeral of a field takes one byte for each digit. -/
theorem encode_padded (width n : Nat) (h : n < 10 ^ (width + 1)) :
    Utf8.encode (padded (width + 1) n) = digitBytes (width + 1) n := by
  induction width generalizing n with
  | zero =>
    have hn : n < 10 := h
    rw [padded, Nat.toDigits_of_lt_base hn]
    simp [Utf8.encode, digitBytes, encodeNat_digitChar n hn, Nat.mod_eq_of_lt hn]
  | succ width ih =>
    have hn : n / 10 < 10 ^ (width + 1) := by
      rw [Nat.pow_succ] at h
      omega
    rw [padded_succ, Utf8.encode_append, ih _ hn, Utf8.encode_cons, Utf8.encode_nil,
      encodeNat_digitChar _ (Nat.mod_lt _ (by decide)), List.append_nil]
    rfl

/-- The fields of a time with a mark between hours and minutes. -/
theorem readFields?_colon {left n : Nat} {colons : Option Bool} {rest : Bytes} (hn : n < 100)
    (hcolons : colons ≠ some false) (hrest : rest ≠ []) :
    readFields? (left + 1) colons (digitBytes 2 n ++ colon :: rest)
      = (readFields? left (some true) rest).map fun (ns, tail) => (n :: ns, tail) := by
  obtain ⟨b, rest, rfl⟩ := List.exists_cons_of_ne_nil hrest
  have hsep : colons.getD (colon == colon) = true := by
    cases colons with
    | none => rfl
    | some c => cases c <;> simp_all
  rw [readFields?, digits?_digitBytes _ hn]
  simp only [hsep, and_self, if_true]

theorem readFields?_last {left n : Nat} {colons : Option Bool} (hn : n < 100) :
    readFields? (left + 1) colons (digitBytes 2 n) = some ([n], .finished) := by
  have h := digits?_digitBytes 2 hn []
  rw [List.append_nil] at h
  rw [readFields?, h]

theorem readFields?_fraction {left n : Nat} {rest : Bytes} (hn : n < 100) (hrest : rest ≠ []) :
    readFields? (left + 1) (some true) (digitBytes 2 n ++ 46 :: rest)
      = some ([n], .fraction rest) := by
  obtain ⟨b, rest, rfl⟩ := List.exists_cons_of_ne_nil hrest
  rw [readFields?, digits?_digitBytes _ hn]
  simp [colon]

/-- Six digits of a fraction are read exactly, with nothing cut off. -/
theorem readFraction?_digitBytes {n : Nat} (hn : n < 1000000) :
    readFraction? (digitBytes 6 n) = some (n, true) := by
  have htake : (digitBytes 6 n).take 6 = digitBytes 6 n := List.take_of_length_le (by simp)
  have hdrop : (digitBytes 6 n).drop 6 = [] := List.drop_of_length_le (by simp)
  rw [readFraction?, length_digitBytes]
  simp [htake, hdrop, number?_digitBytes, Nat.mod_eq_of_lt hn]

theorem digitBytes_ne_nil {width n : Nat} (h : 0 < width) : digitBytes width n ≠ [] := by
  rw [← List.length_pos_iff, length_digitBytes]
  exact h

/-- The bytes of hours and minutes. -/
def minuteBytes (hour minute : Nat) : Bytes :=
  digitBytes 2 hour ++ colon :: digitBytes 2 minute

/-- The bytes of hours, minutes and seconds. -/
def secondBytes (hour minute second : Nat) : Bytes :=
  digitBytes 2 hour ++ colon :: (digitBytes 2 minute ++ colon :: digitBytes 2 second)

/-- The bytes of a time down to the microsecond. -/
def microsecondBytes (hour minute second microsecond : Nat) : Bytes :=
  digitBytes 2 hour ++ colon :: (digitBytes 2 minute ++ colon ::
    (digitBytes 2 second ++ 46 :: digitBytes 6 microsecond))

section Clock

variable {hour minute second microsecond : Nat} (hh : hour < 100) (hm : minute < 100)
  (hs : second < 100)

include hh hm

theorem readClock?_minuteBytes :
    readClock? (minuteBytes hour minute) = some (⟨hour, minute, 0, 0⟩, true) := by
  rw [readClock?, minuteBytes,
    readFields?_colon hh (by simp) (digitBytes_ne_nil (by decide)), readFields?_last hm]
  rfl

include hs

theorem readClock?_secondBytes :
    readClock? (secondBytes hour minute second) = some (⟨hour, minute, second, 0⟩, true) := by
  rw [readClock?, secondBytes, readFields?_colon hh (by simp) (by simp),
    readFields?_colon hm (by simp) (digitBytes_ne_nil (by decide)), readFields?_last hs]
  rfl

/-- A time of day with a fraction is read field by field. -/
theorem readClock?_microsecondBytes (hu : microsecond < 1000000) :
    readClock? (microsecondBytes hour minute second microsecond)
      = some (⟨hour, minute, second, microsecond⟩, true) := by
  rw [readClock?, microsecondBytes, readFields?_colon hh (by simp) (by simp),
    readFields?_colon hm (by simp) (by simp),
    readFields?_fraction hs (digitBytes_ne_nil (by decide))]
  simp only [Option.map_some, Option.bind_eq_bind, Option.bind_some, readFraction?_digitBytes hu]
  rfl

end Clock

/-- The bytes of the ISO form of a date. -/
def dateBytes (d : Date) : Bytes :=
  digitBytes 4 d.year ++ hyphen :: (digitBytes 2 d.month ++ hyphen :: digitBytes 2 d.day)

/-- The bytes of the ISO form of a time of day. -/
def clockBytes (c : Clock) : Bytes :=
  if c.microsecond = 0 then secondBytes c.hour c.minute c.second
  else microsecondBytes c.hour c.minute c.second c.microsecond

/-- The bytes of the ISO form of an offset, after its sign. -/
def offsetBytes (o : Offset) : Bytes :=
  let n := o.microseconds.natAbs
  let hour := n / 3600000000
  let minute := n / 60000000 % 60
  let second := n / 1000000 % 60
  if n % 1000000 = 0 then
    if second = 0 then minuteBytes hour minute else secondBytes hour minute second
  else microsecondBytes hour minute second (n % 1000000)

/-- The byte of the sign of an offset. -/
def signByte (o : Offset) : UInt8 :=
  if o.microseconds < 0 then hyphen else 43

theorem day_le (d : Date) : d.day ≤ 31 := by
  have h : daysInMonth d.year d.month ≤ 31 := by
    unfold daysInMonth
    split
    all_goals try omega
    split <;> omega
  exact Nat.le_trans d.day_valid.2 h

/-- The bytes of a date in ISO form. -/
theorem encode_isoDate (d : Date) : Utf8.encode (isoDate d) = dateBytes d := by
  have hyear := d.year_valid
  have hmonth := d.month_valid
  have hday := day_le d
  simp only [isoDate, List.append_assoc, Utf8.encode_append, Utf8.encode_cons, List.cons_append]
  rw [encode_padded 3 _ (by omega), encode_padded 1 _ (by omega), encode_padded 1 _ (by omega)]
  rfl

/-- The bytes of a time of day; a fraction of zero is left out. -/
theorem encode_isoClock (c : Clock) : Utf8.encode (isoClock c) = clockBytes c := by
  have hh := c.hour_valid
  have hm := c.minute_valid
  have hs := c.second_valid
  have hu := c.microsecond_valid
  simp only [isoClock, List.append_assoc, Utf8.encode_append, Utf8.encode_cons, List.cons_append]
  rw [encode_padded 1 _ (by omega), encode_padded 1 _ (by omega), encode_padded 1 _ (by omega)]
  unfold clockBytes
  split
  · rw [Utf8.encode_nil, List.append_nil]
    rfl
  · rw [Utf8.encode_cons, encode_padded 5 _ (by omega)]
    rfl

/-- The bytes of an offset; seconds and fractions that are zero are left out. -/
theorem encode_isoOffset (o : Offset) :
    Utf8.encode (isoOffset o) = signByte o :: offsetBytes o := by
  have hn : o.microseconds.natAbs < 86400000000 := o.valid
  have hsign : Utf8.encodeNat (if o.microseconds < 0 then '-' else '+' : Char).toNat
      = [signByte o] := by
    unfold signByte
    split <;> rfl
  simp only [isoOffset, offsetBytes, List.append_assoc, Utf8.encode_append, Utf8.encode_cons,
    List.cons_append]
  generalize o.microseconds.natAbs = n at hn
  rw [hsign, encode_padded 1 _ (by omega), encode_padded 1 _ (by omega), List.singleton_append]
  congr 1
  by_cases hu : n % 1000000 = 0
  · by_cases hs : n / 1000000 % 60 = 0
    · rw [if_pos ⟨hs, hu⟩, if_pos hu, if_pos hu, if_pos hs, Utf8.encode_nil, List.append_nil,
        List.append_nil]
      rfl
    · rw [if_neg fun h => hs h.1, if_pos hu, if_pos hu, if_neg hs, Utf8.encode_nil,
        List.append_nil, Utf8.encode_cons, encode_padded 1 _ (by omega)]
      rfl
  · rw [if_neg fun h => hu h.2, if_neg hu, if_neg hu, Utf8.encode_cons, Utf8.encode_cons,
      encode_padded 1 _ (by omega), encode_padded 5 _ (by omega)]
    rfl

/-- A time of day is read back from its bytes, with a fraction or without one. -/
theorem readClock?_clockBytes (c : Clock) :
    readClock? (clockBytes c) = some (⟨c.hour, c.minute, c.second, c.microsecond⟩, true) := by
  have hh := c.hour_valid
  have hm := c.minute_valid
  have hs := c.second_valid
  have hu := c.microsecond_valid
  unfold clockBytes
  split
  · rename_i hzero
    rw [readClock?_secondBytes (by omega) (by omega) (by omega), hzero]
  · rw [readClock?_microsecondBytes (by omega) (by omega) (by omega) (by omega)]

theorem signByte_beq_hyphen (o : Offset) :
    (signByte o == hyphen) = decide (o.microseconds < 0) := by
  unfold signByte
  by_cases h : o.microseconds < 0
  · rw [if_pos h, decide_eq_true h]
    rfl
  · rw [if_neg h, decide_eq_false h]
    rfl

/-- So is the length of an offset, in each of its three forms. -/
theorem readClock?_offsetBytes (o : Offset) :
    readClock? (offsetBytes o)
      = some (⟨o.microseconds.natAbs / 3600000000, o.microseconds.natAbs / 60000000 % 60,
          o.microseconds.natAbs / 1000000 % 60, o.microseconds.natAbs % 1000000⟩, true) := by
  have hn : o.microseconds.natAbs < 86400000000 := o.valid
  unfold offsetBytes
  simp only
  split
  · rename_i hu
    split
    · rename_i hs
      rw [readClock?_minuteBytes (by omega) (by omega), hs, hu]
    · rw [readClock?_secondBytes (by omega) (by omega) (by omega), hu]
  · rw [readClock?_microsecondBytes (by omega) (by omega) (by omega) (by omega)]

/-- The sign and the bytes of an offset are read as the offset, or as zero below a second. -/
theorem readOffset?_offsetBytes (o : Offset) :
    readOffset? (signByte o == hyphen) (offsetBytes o) = some o.asRead.microseconds := by
  have hn : o.microseconds.natAbs < 86400000000 := o.valid
  rw [readOffset?, readClock?_offsetBytes, signByte_beq_hyphen]
  simp only [Option.bind_eq_bind, Option.bind_some, if_true, decide_eq_true_eq]
  -- Hours, minutes and seconds add up to the whole seconds of the offset.
  have hsum : o.microseconds.natAbs / 3600000000 * 3600
      + o.microseconds.natAbs / 60000000 % 60 * 60 + o.microseconds.natAbs / 1000000 % 60
      = o.microseconds.natAbs / 1000000 := by
    omega
  rw [hsum]
  unfold Offset.asRead
  by_cases hsub : o.IsSubSecond
  · have hzero : o.microseconds.natAbs / 1000000 = 0 := by
      have := hsub.2
      omega
    rw [if_pos hzero, if_pos hsub]
    simp [Offset.utc]
  · rw [if_neg hsub]
    have hcases : o.microseconds = 0 ∨ 1000000 ≤ o.microseconds.natAbs := by
      by_cases hz : o.microseconds = 0
      · exact .inl hz
      · by_cases hlt : o.microseconds.natAbs < 1000000
        · exact absurd ⟨hz, hlt⟩ hsub
        · exact .inr (by omega)
    congr 1
    split <;> split <;> omega

theorem isOffsetMark_of_mem_digitBytes {width n : Nat} {b : UInt8} (h : b ∈ digitBytes width n) :
    isOffsetMark b = false := by
  have hdigit : ∀ k, k < 10 → isOffsetMark (digitByte k) = false := by decide
  obtain ⟨k, hk, rfl⟩ := exists_of_mem_digitBytes h
  exact hdigit k hk

/-- No byte of a time of day looks like the beginning of an offset, so the time ends there. -/
theorem isOffsetMark_of_mem_clockBytes {c : Clock} {b : UInt8} (h : b ∈ clockBytes c) :
    isOffsetMark b = false := by
  unfold clockBytes secondBytes microsecondBytes at h
  split at h
  · simp only [List.mem_append, List.mem_cons] at h
    rcases h with h | rfl | h | rfl | h
    · exact isOffsetMark_of_mem_digitBytes h
    · rfl
    · exact isOffsetMark_of_mem_digitBytes h
    · rfl
    · exact isOffsetMark_of_mem_digitBytes h
  · simp only [List.mem_append, List.mem_cons] at h
    rcases h with h | rfl | h | rfl | h | rfl | h
    · exact isOffsetMark_of_mem_digitBytes h
    · rfl
    · exact isOffsetMark_of_mem_digitBytes h
    · rfl
    · exact isOffsetMark_of_mem_digitBytes h
    · rfl
    · exact isOffsetMark_of_mem_digitBytes h

/-- The bytes of an offset with its sign, if there is one. -/
def zoneBytes (offset : Option Offset) : Bytes :=
  (offset.map fun o => signByte o :: offsetBytes o).getD []

/-- A time of day with its offset is read back, but for an offset below a second, which is read as
universal time. -/
theorem readTime?_clockBytes (c : Clock) (offset : Option Offset) :
    readTime? (clockBytes c ++ zoneBytes offset)
      = some (⟨c.hour, c.minute, c.second, c.microsecond⟩,
          offset.map fun o => o.asRead.microseconds) := by
  have hclock : ∀ b ∈ clockBytes c, (!isOffsetMark b) = true := by
    intro b hb
    rw [isOffsetMark_of_mem_clockBytes hb]
    rfl
  have hzone : (zoneBytes offset).takeWhile (fun b => !isOffsetMark b) = [] := by
    cases offset with
    | none => rfl
    | some o =>
      have hmark : isOffsetMark (signByte o) = true := by
        unfold signByte
        split <;> rfl
      exact List.takeWhile_cons_of_neg (by simp [hmark])
  have htime : (clockBytes c ++ zoneBytes offset).takeWhile (fun b => !isOffsetMark b)
      = clockBytes c := by
    rw [List.takeWhile_append_of_pos hclock, hzone, List.append_nil]
  rw [readTime?, htime, List.drop_left, readClock?_clockBytes]
  simp only [Option.bind_eq_bind, Option.bind_some]
  cases offset with
  | none => rfl
  | some o =>
    have hmark : signByte o ≠ 90 := by
      unfold signByte
      split <;> decide
    simp only [zoneBytes, Option.map_some, Option.getD_some, if_neg hmark,
      readOffset?_offsetBytes]

/-- A date is read back from its ten bytes. -/
theorem readDate?_dateBytes (d : Date) (rest : Bytes) :
    readDate? 10 (dateBytes d ++ rest) = some (d.year, d.month, d.day) := by
  have hyear := d.year_valid
  have hmonth := d.month_valid
  have hday := day_le d
  have hweek : ∀ k, k < 10 → digitByte k ≠ weekMark := by decide
  have hhead : (digitBytes 2 d.month ++ hyphen :: (digitBytes 2 d.day ++ rest)).head?
      ≠ some weekMark := by
    simpa [digitBytes] using hweek _ (Nat.mod_lt _ (by decide))
  simp only [dateBytes, List.append_assoc, List.cons_append]
  rw [readDate?, digits?_digitBytes 4 (by omega)]
  simp only [Option.bind_eq_bind, Option.bind_some, List.head?_cons, beq_self_eq_true, if_true,
    List.drop_succ_cons, List.drop_zero, if_neg hhead]
  rw [digits?_digitBytes 2 (by omega)]
  simp only [Option.bind_some, after?, if_true]
  rw [digits?_digitBytes 2 (by omega)]
  rfl

theorem length_dateBytes (d : Date) : (dateBytes d).length = 10 := by
  simp [dateBytes]

/-- The date of an ISO form is told to be ten bytes long, as no week mark follows the hyphen of the
year. -/
theorem dateLength?_dateBytes (d : Date) {rest : Bytes} (h : rest ≠ []) :
    dateLength? (dateBytes d ++ rest) = some 10 := by
  have hrest : 0 < rest.length := List.length_pos_iff.2 h
  have hweek : ∀ k, k < 10 → digitByte k ≠ weekMark := by decide
  have h4 : (dateBytes d ++ rest)[4]? = some hyphen := by
    simp [dateBytes, digitBytes]
  have h5 : (dateBytes d ++ rest)[5]? ≠ some weekMark := by
    simpa [dateBytes, digitBytes] using hweek _ (Nat.mod_lt _ (by decide))
  rw [dateLength?, if_neg, if_pos h4, if_neg h5]
  rw [List.length_append, length_dateBytes]
  omega

/-- All fields of a timestamp are read back from the bytes of its ISO form. -/
theorem readFieldsOf?_iso (t : Timestamp) :
    readFieldsOf? (Utf8.encode t.iso)
      = some ((t.date.year, t.date.month, t.date.day),
          ⟨t.clock.hour, t.clock.minute, t.clock.second, t.clock.microsecond⟩,
          (t.offset.map Offset.asRead).map Offset.microseconds) := by
  have hzone : Utf8.encode ((t.offset.map isoOffset).getD []) = zoneBytes t.offset := by
    cases t.offset with
    | none => rfl
    | some o => exact encode_isoOffset o
  have henc : Utf8.encode t.iso
      = dateBytes t.date ++ 84 :: (clockBytes t.clock ++ zoneBytes t.offset) := by
    simp only [iso, List.append_assoc, List.cons_append, Utf8.encode_append, Utf8.encode_cons,
      encode_isoDate, encode_isoClock, hzone]
    rfl
  have hlength : (dateBytes t.date ++ 84 :: (clockBytes t.clock ++ zoneBytes t.offset)).length
      = 11 + (clockBytes t.clock ++ zoneBytes t.offset).length := by
    rw [List.length_append, length_dateBytes, List.length_cons]
    omega
  have hrest : (dateBytes t.date ++ 84 :: (clockBytes t.clock ++ zoneBytes t.offset)).drop 10
      = 84 :: (clockBytes t.clock ++ zoneBytes t.offset) := by
    rw [List.drop_append_of_le_length (by rw [length_dateBytes]),
      List.drop_of_length_le (by rw [length_dateBytes]), List.nil_append]
  have hwidth : leadWidth (84 :: (clockBytes t.clock ++ zoneBytes t.offset)) = 1 := rfl
  rw [henc, readFieldsOf?, if_neg (by omega), dateLength?_dateBytes _ (by simp)]
  simp only [Option.bind_eq_bind, Option.bind_some, readDate?_dateBytes]
  rw [if_pos (by omega), hrest, hwidth, List.drop_succ_cons, List.drop_zero, readTime?_clockBytes]
  simp only [Option.bind_some, Option.map_map]
  rfl

/-- The ISO form of a timestamp is read back, but for the rules of its zone, its fold, and an offset
below a second. -/
theorem read_iso (t : Timestamp) : read t.iso = .ok t.asRead := by
  have hoffset : ((t.offset.map Offset.asRead).map Offset.microseconds).mapM
      Offset.ofMicroseconds = .ok (t.offset.map Offset.asRead) := by
    cases t.offset.map Offset.asRead with
    | none => rfl
    | some o =>
      rw [Option.map_some, Option.mapM_some, Offset.ofMicroseconds_self]
      rfl
  rw [read, readFieldsOf?_iso]
  simp only [ofFields, hoffset, Date.ofFields_self, Clock.ofFields_self, bind, Except.bind, pure,
    Except.pure, mapError_ok]
  rfl

/-- The characters of the ISO form of a timestamp. -/
def isIsoChar (c : Char) : Bool :=
  c.isDigit || c == '-' || c == ':' || c == '.' || c == '+' || c == 'T'

theorem isIsoChar_of_mem_padded {width n : Nat} {c : Char} (h : c ∈ padded width n) :
    isIsoChar c = true := by
  rw [padded, List.mem_append] at h
  rcases h with h | h
  · obtain ⟨-, rfl⟩ := List.mem_replicate.1 h
    rfl
  · rw [isIsoChar, Nat.isDigit_of_mem_toDigits (by decide) (by decide) h]
    rfl

theorem isIsoChar_of_mem_fraction {p : Prop} [Decidable p] {width n : Nat} {mark c : Char}
    (hmark : isIsoChar mark = true) (h : c ∈ if p then [] else mark :: padded width n) :
    isIsoChar c = true := by
  split at h
  · cases h
  · rcases List.mem_cons.1 h with rfl | h
    · exact hmark
    · exact isIsoChar_of_mem_padded h

/-- The ISO form of a timestamp holds digits and a few signs only, none of them blank. -/
theorem isIsoChar_of_mem_iso {t : Timestamp} {c : Char} (h : c ∈ t.iso) : isIsoChar c = true := by
  simp only [iso, isoDate, isoClock, List.mem_append, List.mem_cons, or_assoc] at h
  rcases h with h | rfl | h | rfl | h | rfl | h | rfl | h | rfl | h | h | h
  · exact isIsoChar_of_mem_padded h
  · rfl
  · exact isIsoChar_of_mem_padded h
  · rfl
  · exact isIsoChar_of_mem_padded h
  · rfl
  · exact isIsoChar_of_mem_padded h
  · rfl
  · exact isIsoChar_of_mem_padded h
  · rfl
  · exact isIsoChar_of_mem_padded h
  · exact isIsoChar_of_mem_fraction rfl h
  · cases ho : t.offset with
    | none => simp [ho] at h
    | some o =>
      simp only [ho, Option.map_some, Option.getD_some, isoOffset, List.mem_append, List.mem_cons,
        or_assoc] at h
      rcases h with h | h | rfl | h | h | h
      · rw [h]
        split <;> rfl
      · exact isIsoChar_of_mem_padded h
      · rfl
      · exact isIsoChar_of_mem_padded h
      · exact isIsoChar_of_mem_fraction rfl h
      · exact isIsoChar_of_mem_fraction rfl h

theorem iso_ne_nil (t : Timestamp) : t.iso ≠ [] := by
  simp [iso]

/-- What is read for a timestamp is written as the timestamp is, unless its offset was not read
back. -/
theorem iso_asRead {t : Timestamp} (h : ¬ t.IsSubSecond) : t.asRead.iso = t.iso := by
  rw [iso, iso, offset_asRead_of_not_isSubSecond h]
  rfl

/-! Which offsets reading can lead to. -/

/-- An offset that is read is zero or at least a second long. -/
theorem natAbs_of_readOffset? {negative : Bool} {s : Bytes} {n : Int}
    (h : readOffset? negative s = some n) : n = 0 ∨ 1000000 ≤ n.natAbs := by
  simp only [readOffset?, Option.bind_eq_bind, Option.bind_eq_some_iff] at h
  obtain ⟨⟨raw, whole⟩, -, h⟩ := h
  simp only at h
  split at h
  · simp only [Option.some.injEq] at h
    split at h <;> split at h <;> omega
  · cases h

theorem natAbs_of_readTime? {s : Bytes} {clock : RawClock} {n : Int}
    (h : readTime? s = some (clock, some n)) : n = 0 ∨ 1000000 ≤ n.natAbs := by
  simp only [readTime?, Option.bind_eq_bind, Option.bind_eq_some_iff] at h
  obtain ⟨⟨raw, whole⟩, -, h⟩ := h
  simp only at h
  split at h
  · split at h <;> simp at h
  · split at h
    · split at h
      · simp only [Option.some.injEq, Prod.mk.injEq] at h
        exact .inl h.2.symm
      · cases h
    · obtain ⟨m, hm, h⟩ := Option.map_eq_some_iff.1 h
      simp only [Prod.mk.injEq, Option.some.injEq] at h
      rw [← h.2]
      exact natAbs_of_readOffset? hm

theorem natAbs_of_readFieldsOf? {s : Bytes} {date : Nat × Nat × Nat} {clock : RawClock} {n : Int}
    (h : readFieldsOf? s = some (date, clock, some n)) : n = 0 ∨ 1000000 ≤ n.natAbs := by
  rw [readFieldsOf?] at h
  split at h
  · cases h
  · simp only [Option.bind_eq_bind, Option.bind_eq_some_iff] at h
    obtain ⟨length, -, date', -, h⟩ := h
    split at h
    · obtain ⟨⟨clock', offset⟩, ht, h⟩ := Option.bind_eq_some_iff.1 h
      simp only [Option.some.injEq, Prod.mk.injEq] at h
      rw [h.2.2] at ht
      exact natAbs_of_readTime? ht
    · simp at h

/-- A zone that is made from fields is a fixed offset. -/
theorem zone_of_ofFields {date : Nat × Nat × Nat} {clock : RawClock} {offset : Option Int}
    {t : Timestamp} (h : ofFields date clock offset = .ok t) :
    t.zone = t.offset.map .fixed ∧ t.fold = false ∧ t.offset.map Offset.microseconds = offset := by
  unfold ofFields at h
  obtain ⟨o, ho, h⟩ := bind_eq_ok_iff.1 h
  obtain ⟨d, -, h⟩ := bind_eq_ok_iff.1 h
  obtain ⟨c, -, h⟩ := bind_eq_ok_iff.1 h
  cases h
  cases offset with
  | none =>
    cases ho
    exact ⟨rfl, rfl, rfl⟩
  | some n =>
    rw [Option.mapM_some] at ho
    obtain ⟨p, hp, ho⟩ := map_eq_ok_iff.1 ho
    cases ho
    unfold Offset.ofMicroseconds at hp
    split at hp
    · cases hp
      exact ⟨rfl, rfl, rfl⟩
    · cases hp

/-- A timestamp that has been read is read back as it is: it has no zone but an offset that was
stated, and none that is below a second and not zero. -/
theorem asRead_of_read {text : List Char} {t : Timestamp} (h : read text = .ok t) :
    t.asRead = t := by
  unfold read at h
  split at h
  · cases h
  · rename_i date clock offset hfields
    obtain ⟨hzone, hfold, hoffset⟩ := zone_of_ofFields (mapError_eq_ok_iff.1 h)
    have hsub : ¬ t.IsSubSecond := by
      rintro ⟨o, ho, hne, hlt⟩
      rw [show t.offset = some o from ho] at hoffset
      rw [← hoffset] at hfields
      have hsize := natAbs_of_readFieldsOf? hfields
      omega
    rw [asRead, ← offset_asRead, offset_asRead_of_not_isSubSecond hsub, ← hzone, ← hfold]

end Timestamp

end LicenseDepot
