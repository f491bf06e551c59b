import LicenseDepot.Timestamp.Basic
import Mathlib.Data.Option.Basic

/-!
# What is read for a timestamp

The ISO form of a timestamp holds what it shows and its offset, down to the microsecond, but neither
the rules of its zone nor its fold; and an offset below a second is not read back. So another
timestamp is read than was written (`Timestamp.asRead`). It is the same as that one except in two
cases, in which the timestamp is lost: the offset is below a second and not zero, or it depends on
the fold. Main statement: `Timestamp.same_asRead_iff`.
-/

namespace LicenseDepot

/-- An offset that is not zero and less than a second either way. -/
def Offset.IsSubSecond (o : Offset) : Prop :=
  o.microseconds ≠ 0 ∧ o.microseconds.natAbs < 1000000

instance (o : Offset) : Decidable o.IsSubSecond :=
  inferInstanceAs (Decidable (_ ∧ _))

/-- The offset that is read where an offset has been written. -/
def Offset.asRead (o : Offset) : Offset :=
  if o.IsSubSecond then .utc else o

namespace Timestamp

/-- A timestamp with an offset that is not zero and less than a second either way. -/
def IsSubSecond (t : Timestamp) : Prop :=
  ∃ o ∈ t.offset, o.IsSubSecond

instance (t : Timestamp) : Decidable t.IsSubSecond :=
  decidable_of_iff (t.offset.any fun o => decide o.IsSubSecond) <| by
    simp [IsSubSecond, Option.any_eq_true]

/-- A timestamp for which another one is read: its offset is below a second and not zero, or depends
on its fold. -/
def IsLost (t : Timestamp) : Prop :=
  t.IsSubSecond ∨ t.isTwofold = true

instance (t : Timestamp) : Decidable t.IsLost :=
  inferInstanceAs (Decidable (_ ∨ _))

/-- The timestamp that is read where a timestamp has been written. -/
def asRead (t : Timestamp) : Timestamp :=
  { date := t.date, clock := t.clock, zone := (t.offset.map Offset.asRead).map .fixed }

@[simp] theorem offset_asRead (t : Timestamp) : t.asRead.offset = t.offset.map Offset.asRead := by
  unfold asRead
  cases t.offset with
  | none => rfl
  | some o => rfl

@[simp] theorem isTwofold_asRead (t : Timestamp) : t.asRead.isTwofold = false := by
  unfold asRead
  cases t.offset with
  | none => rfl
  | some o => simp [isTwofold, Zone.offset?]

/-- What is read is in no zone with rules. -/
@[simp] theorem shareZone_asRead (s t : Timestamp) : s.asRead.shareZone t = false := by
  unfold asRead
  cases s.offset with
  | none => rfl
  | some o => rfl

theorem offset_asRead_of_isSubSecond {t : Timestamp} (h : t.IsSubSecond) :
    t.asRead.offset = some .utc := by
  obtain ⟨o, ho, hsub⟩ := h
  rw [offset_asRead, show t.offset = some o from ho, Option.map_some, Offset.asRead, if_pos hsub]

theorem offset_asRead_of_not_isSubSecond {t : Timestamp} (h : ¬ t.IsSubSecond) :
    t.asRead.offset = t.offset := by
  rw [offset_asRead]
  cases ho : t.offset with
  | none => rfl
  | some o =>
    have hsub : ¬ o.IsSubSecond := fun hsub => h ⟨o, ho, hsub⟩
    rw [Option.map_some, Offset.asRead, if_neg hsub]

/-- A timestamp that is not lost is the same as the one that is read for it, and one that is lost is
not. -/
theorem same_asRead_iff (t : Timestamp) : t.asRead.same t = true ↔ ¬ t.IsLost := by
  have hlocal : t.asRead.localMicroseconds = t.localMicroseconds := rfl
  unfold same IsLost
  rw [shareZone_asRead, isTwofold_asRead, Bool.false_or, if_neg (by simp)]
  cases t.isTwofold with
  | true => simp
  | false =>
    simp only [Bool.false_eq_true, if_false, or_false]
    by_cases hsub : t.IsSubSecond
    · -- Both have an offset, so they are compared by their instants, which lie that far apart.
      have hutc := offset_asRead_of_isSubSecond hsub
      obtain ⟨o, ho, hne, hlt⟩ := id hsub
      have hinstant : t.asRead.instant? = some t.localMicroseconds := by
        simp [instant?, hutc, hlocal, Offset.utc]
      have hinstant' : t.instant? = some (t.localMicroseconds - o.microseconds) := by
        rw [instant?, show t.offset = some o from ho, Option.map_some]
      simp only [hinstant, hinstant', hsub, not_true_eq_false, iff_false, beq_iff_eq]
      omega
    · have hinstant : t.asRead.instant? = t.instant? := by
        rw [instant?, instant?, offset_asRead_of_not_isSubSecond hsub, hlocal]
      rw [hinstant]
      cases t.instant? with
      | none => simp [asRead, hsub]
      | some i => simp [hsub]

end Timestamp

end LicenseDepot
