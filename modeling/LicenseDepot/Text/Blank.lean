import LicenseDepot.Text.Range

/-!
# Blank characters

Fields are trimmed of every character that Unicode counts as white space, and of the four
information separators of ASCII besides. Trimming works on both ends and never inside.
-/

namespace LicenseDepot.Text

/-- The code points that count as blank. -/
def blankRanges : List (Nat × Nat) :=
  [(0x09, 0x0D), (0x1C, 0x20), (0x85, 0x85), (0xA0, 0xA0), (0x1680, 0x1680), (0x2000, 0x200A),
    (0x2028, 0x2029), (0x202F, 0x202F), (0x205F, 0x205F), (0x3000, 0x3000)]

/-- Whether a character is blank. -/
def isBlank (c : Char) : Bool :=
  inRanges blankRanges c.toNat

theorem isBlank_iff {c : Char} :
    isBlank c = true ↔ ∃ r ∈ blankRanges, r.1 ≤ c.toNat ∧ c.toNat ≤ r.2 :=
  inRanges_iff

/-- The text without the blank characters at its start. -/
def trimStart (s : List Char) : List Char :=
  s.dropWhile isBlank

/-- The text without the blank characters at its end. -/
def trimEnd (s : List Char) : List Char :=
  (trimStart s.reverse).reverse

/-- The text without the blank characters at either end. -/
def trim (s : List Char) : List Char :=
  trimEnd (trimStart s)

@[simp] theorem trim_nil : trim [] = [] := rfl

end LicenseDepot.Text
