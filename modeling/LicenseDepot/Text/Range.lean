/-!
# Sets of code points as lists of ranges

Character classes of a standard are given as lists of closed ranges of code points. Membership is
a Boolean search, and `inRanges_iff` turns it into the existence of a range, which is all that
other modules use.
-/

namespace LicenseDepot.Text

/-- Membership of a code point in a list of closed ranges. -/
def inRanges (ranges : List (Nat × Nat)) (n : Nat) : Bool :=
  ranges.any fun r => decide (r.1 ≤ n) && decide (n ≤ r.2)

theorem inRanges_iff {ranges : List (Nat × Nat)} {n : Nat} :
    inRanges ranges n = true ↔ ∃ r ∈ ranges, r.1 ≤ n ∧ n ≤ r.2 := by
  simp [inRanges]

end LicenseDepot.Text
