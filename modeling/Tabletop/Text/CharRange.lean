/-!
# Ranges of characters

A class of characters is described by a list of ranges of code points.

## Main definitions

* `CharRange` — all characters between two code points.
* `inRanges` — whether a character lies in one of the ranges.
-/

namespace Tabletop.Text

/-- All characters from `first` to `last`, both included. -/
structure CharRange where
  /-- The first code point. -/
  first : Nat
  /-- The last code point. -/
  last : Nat
  deriving DecidableEq, Repr

/-- Whether the character lies in the range. -/
def CharRange.contains (r : CharRange) (c : Char) : Bool :=
  decide (r.first ≤ c.toNat) && decide (c.toNat ≤ r.last)

/-- Whether the character lies in one of the ranges. -/
def inRanges (ranges : List CharRange) (c : Char) : Bool := ranges.any (·.contains c)

/-- Membership in a range, as a proposition. -/
theorem CharRange.contains_iff {r : CharRange} {c : Char} :
    r.contains c = true ↔ r.first ≤ c.toNat ∧ c.toNat ≤ r.last := by
  simp [CharRange.contains]

/-- Membership in one of several ranges, as a proposition. -/
theorem inRanges_iff {ranges : List CharRange} {c : Char} :
    inRanges ranges c = true ↔ ∃ r ∈ ranges, r.first ≤ c.toNat ∧ c.toNat ≤ r.last := by
  simp [inRanges, CharRange.contains_iff]

end Tabletop.Text
