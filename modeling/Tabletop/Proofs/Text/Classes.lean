import Mathlib.Algebra.GroupWithZero.Nat
import Tabletop.Dice.Token

/-!
# Classes of characters and numerals

Blanks, digits, dice letters and the signs of dice expressions are classes of characters that have
no character in common.  The number that a run of digits writes is bounded by its length.

## Main results

* `isDigit_iff` — the digits, as ranges of code points.
* `isDigit_eq_false_of_isBlank`, `classes_of_ofChar?`, … — the classes are disjoint.
* `numeralValue_lt` — a numeral is bounded by its length.
-/

namespace Tabletop.Text

/-- A digit lies between the zero and the nine of its script. -/
theorem isDigit_iff {c : Char} :
    isDigit c = true ↔ ∃ z ∈ digitZeros, z ≤ c.toNat ∧ c.toNat < z + 10 := by
  rw [isDigit, digitValue?, Option.isSome_map, List.find?_isSome]
  simp only [Bool.and_eq_true, decide_eq_true_eq]

/-- A blank is no digit. -/
theorem isDigit_eq_false_of_isBlank {c : Char} (h : isBlank c = true) : isDigit c = false := by
  have hapart : ∀ r ∈ blankRanges, ∀ z ∈ digitZeros, r.last < z ∨ z + 10 ≤ r.first := by decide
  obtain ⟨r, hr, hfirst, hlast⟩ := inRanges_iff.1 h
  rw [Bool.eq_false_iff]
  intro hdigit
  obtain ⟨z, hz, hzero, hnine⟩ := isDigit_iff.1 hdigit
  have := hapart r hr z hz
  omega

theorem isBlank_eq_false_of_isDigit {c : Char} (h : isDigit c = true) : isBlank c = false := by
  rw [Bool.eq_false_iff]
  intro hblank
  rw [isDigit_eq_false_of_isBlank hblank] at h
  cases h

/-! ### Numerals -/

theorem foldl_digitValue_lt (ds : List Char) {n m : Nat} (h : n < m) :
    ds.foldl (fun n c => 10 * n + (digitValue? c).getD 0) n < m * 10 ^ ds.length := by
  induction ds generalizing n m with
  | nil => exact Nat.lt_of_lt_of_eq h (Nat.mul_one m).symm
  | cons c ds ih =>
    have hc := getD_digitValue?_lt c
    rw [List.foldl_cons, List.length_cons, Nat.pow_succ', ← Nat.mul_assoc]
    exact ih (by omega)

/-- A numeral is less than the power of ten with as many zeros as it has digits. -/
theorem numeralValue_lt (ds : List Char) : numeralValue ds < 10 ^ ds.length := by
  have h := foldl_digitValue_lt ds Nat.zero_lt_one
  rw [Nat.one_mul] at h
  exact h

end Tabletop.Text

namespace Tabletop.Dice

open Text

/-- A dice letter is one of two. -/
theorem isDiceLetter_iff {c : Char} : isDiceLetter c = true ↔ c = 'd' ∨ c = 'D' := by
  rw [isDiceLetter, Bool.or_eq_true, beq_iff_eq, beq_iff_eq]

/-- A dice letter is neither a blank nor a digit. -/
theorem not_isBlank_of_isDiceLetter {c : Char} (h : isDiceLetter c = true) :
    isBlank c = false ∧ isDigit c = false := by
  rcases isDiceLetter_iff.1 h with rfl | rfl
  · decide
  · decide

theorem isDiceLetter_eq_false_of_isBlank {c : Char} (h : isBlank c = true) :
    isDiceLetter c = false := by
  rw [Bool.eq_false_iff]
  intro hletter
  rw [(not_isBlank_of_isDiceLetter hletter).1] at h
  cases h

/-- The characters that are tokens by themselves. -/
def symbols : List Char := ['+', '-', '*', '/', '(', ')']

theorem mem_symbols_of_ofChar? {c : Char} {t : Token} (h : Token.ofChar? c = some t) :
    c ∈ symbols := by
  by_cases hc : c ∈ symbols
  · exact hc
  · simp only [symbols, List.mem_cons, List.not_mem_nil, or_false, not_or] at hc
    obtain ⟨h₁, h₂, h₃, h₄, h₅, h₆⟩ := hc
    rw [Token.ofChar?, if_neg h₁, if_neg h₂, if_neg h₃, if_neg h₄, if_neg h₅, if_neg h₆] at h
    cases h

/-- A character that is a token by itself is how that token is written. -/
theorem chars_of_ofChar? {c : Char} {t : Token} (h : Token.ofChar? c = some t) :
    t.chars = [c] := by
  have hall : symbols.all (fun c => (Token.ofChar? c).map Token.chars == some [c]) = true := by
    decide
  have hc := List.all_eq_true.1 hall c (mem_symbols_of_ofChar? h)
  rw [h, beq_iff_eq] at hc
  exact Option.some.inj hc

/-- A character that is a token by itself is in none of the other classes. -/
theorem classes_of_ofChar? {c : Char} {t : Token} (h : Token.ofChar? c = some t) :
    isBlank c = false ∧ isDigit c = false ∧ isDiceLetter c = false := by
  have hall : symbols.all (fun c => !isBlank c && !isDigit c && !isDiceLetter c) = true := by
    decide
  have hc := List.all_eq_true.1 hall c (mem_symbols_of_ofChar? h)
  simp only [Bool.and_eq_true, Bool.not_eq_true'] at hc
  exact ⟨hc.1.1, hc.1.2, hc.2⟩

end Tabletop.Dice
