import Mathlib.Logic.Basic

/-!
# Properties of the characters of a text

What can be decided of one character is decided of all characters of a text by going through the
text (`forall_mem_of_all`), and not through all characters there are.
-/

namespace LicenseDepot.Text

theorem forall_mem_of_all {p : Char → Prop} [DecidablePred p] {s : List Char}
    (h : (s.all fun c => decide (p c)) = true) : ∀ c ∈ s, p c := by
  intro c hc
  exact of_decide_eq_true (List.all_eq_true.1 h c hc)

theorem toNat_valid (c : Char) : c.toNat < 0xD800 ∨ (0xDFFF < c.toNat ∧ c.toNat < 0x110000) :=
  c.valid

end LicenseDepot.Text
