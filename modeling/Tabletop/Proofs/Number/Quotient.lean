import Mathlib.Algebra.Order.Field.Power
import Mathlib.Data.Nat.Cast.Order.Field
import Mathlib.Data.Rat.Floor
import Mathlib.Tactic.FieldSimp
import Mathlib.Tactic.Linarith
import Mathlib.Tactic.NormNum
import Mathlib.Tactic.Positivity
import Mathlib.Tactic.Ring
import Tabletop.Number.Binary64

/-!
# Dividing integers through binary numbers

The quotient of two integers has no exact binary form in general, and rounding it may well give an
integer that the quotient itself does not reach.  This does not happen as long as the dividend is
below half of what a mantissa can hold: between the quotient and the next integer there is room for
a binary number that is nearer.

## Main definitions

* `Representable` — a number with 53 binary digits, the exponent being any.
* `IsNearest` — a representable number than which no other is nearer.
* `truncate` — a number with its fraction dropped.
* `Binary64.toRat?` — the value of a binary number.

## Main results

* `truncate_of_isNearest` — **the nearest number to a quotient has the integer part of the
  quotient.**
* `isNearest_of_grid` — rounding to the grid of 53 digits gives the nearest number.
* `Binary64.exists_isNearest_ofQuotient` — the quotient of two integers is rounded to the nearest
  number.
-/

namespace Tabletop.Number

open Binary64 (precision)

/-! ### Numbers with 53 binary digits -/

/-- A number that a mantissa of 53 binary digits and an exponent can give. -/
def Representable (x : ℚ) : Prop :=
  ∃ m e : ℤ, m.natAbs < 2 ^ precision ∧ x = m * 2 ^ e

/-- A representable number, and none is nearer to the given one. -/
structure IsNearest (x y : ℚ) : Prop where
  representable : Representable x
  le_of_representable : ∀ z, Representable z → |x - y| ≤ |z - y|

theorem Representable.neg {x : ℚ} (h : Representable x) : Representable (-x) := by
  obtain ⟨m, e, hm, rfl⟩ := h
  exact ⟨-m, e, by rwa [Int.natAbs_neg], by push_cast; ring⟩

theorem IsNearest.neg {x y : ℚ} (h : IsNearest x y) : IsNearest (-x) (-y) := by
  refine ⟨h.representable.neg, fun z hz => ?_⟩
  calc |-x - -y| = |x - y| := by rw [neg_sub_neg, abs_sub_comm]
    _ ≤ |-z - y| := h.le_of_representable (-z) hz.neg
    _ = |z - -y| := by rw [← neg_add', abs_neg, sub_neg_eq_add]

/-- An integer of at most 53 binary digits is representable. -/
theorem representable_natCast {n : ℕ} (h : n < 2 ^ precision) : Representable n :=
  ⟨n, 0, h, by simp⟩

/-- Nothing is nearer to a representable number than the number itself. -/
theorem isNearest_self {x : ℚ} (h : Representable x) : IsNearest x x :=
  ⟨h, fun z _ => by rw [sub_self, abs_zero]; exact abs_nonneg _⟩

/-! ### Dropping the fraction -/

/-- A number with its fraction dropped. -/
def truncate (x : ℚ) : ℤ := if 0 ≤ x then ⌊x⌋ else ⌈x⌉

theorem truncate_of_nonneg {x : ℚ} (h : 0 ≤ x) : truncate x = ⌊x⌋ := if_pos h

theorem truncate_neg (x : ℚ) : truncate (-x) = -truncate x := by
  rcases lt_trichotomy x 0 with h | rfl | h
  · rw [truncate, if_pos (by linarith), truncate, if_neg (by linarith), Int.floor_neg]
  · rfl
  · rw [truncate, if_neg (by linarith), truncate, if_pos h.le, Int.ceil_neg]

/-- The sign of a quotient, and its size. -/
theorem intCast_div_intCast (a b : ℤ) :
    (a / b : ℚ) = if decide (a < 0) != decide (b < 0) then -(a.natAbs / b.natAbs : ℚ)
      else a.natAbs / b.natAbs := by
  rw [Nat.cast_natAbs, Nat.cast_natAbs]
  rcases lt_or_ge a 0 with ha | ha <;> rcases lt_or_ge b 0 with hb | hb <;>
    simp [ha, hb, not_lt.2, abs_of_neg, abs_of_nonneg, neg_div, div_neg]

theorem truncate_natCast_div (m n : ℕ) : truncate (m / n) = (m / n : ℕ) := by
  rw [truncate_of_nonneg (by positivity), Rat.floor_natCast_div_natCast]
  rfl

/-- Division that goes towards zero drops the fraction of the exact quotient. -/
theorem truncate_intCast_div (a b : ℤ) : truncate (a / b) = a.tdiv b := by
  obtain ⟨m, rfl | rfl⟩ := a.eq_nat_or_neg <;> obtain ⟨n, rfl | rfl⟩ := b.eq_nat_or_neg <;>
    simp [neg_div, div_neg, truncate_neg, truncate_natCast_div, Int.neg_tdiv, Int.tdiv_neg]

/-! ### The integer part of a quotient -/

section Quotient

variable {m n : ℕ}

/-- Between a quotient and the next integer there are binary numbers that are near enough to the
quotient: the grid must be finer than the divisor, and the quotient must not need too many digits on
it. -/
theorem exists_representable_near (hm : m < 2 ^ (precision - 1)) (hn : 0 < n) :
    ∃ z, Representable z ∧ z ≤ (m / n : ℚ) ∧ (m / n : ℚ) - z < 1 / n := by
  set k := n.log2 + 1 with hk
  have hlow : n < 2 ^ k := Nat.lt_log2_self
  have hhigh : 2 ^ k ≤ 2 * n := by
    rw [hk, pow_succ, mul_comm]
    exact Nat.mul_le_mul_left 2 (Nat.log2_self_le hn.ne')
  have hnpos : (0 : ℚ) < n := Nat.cast_pos.2 hn
  have hkpos : (0 : ℚ) < 2 ^ k := by positivity
  refine ⟨(m * 2 ^ k / n : ℕ) / 2 ^ k, ⟨(m * 2 ^ k / n : ℕ), -k, ?_, ?_⟩, ?_, ?_⟩
  · have hle : m * 2 ^ k / n ≤ 2 * m := by
      refine Nat.div_le_of_le_mul ?_
      calc m * 2 ^ k ≤ m * (2 * n) := Nat.mul_le_mul_left m hhigh
        _ = n * (2 * m) := by ring
    rw [Int.natAbs_natCast]
    simp only [precision] at hm ⊢
    omega
  · rw [zpow_neg, zpow_natCast, ← div_eq_mul_inv]
    rfl
  · rw [div_le_div_iff₀ hkpos hnpos]
    exact_mod_cast Nat.div_mul_le_self (m * 2 ^ k) n
  · -- The floor leaves less than one step of the grid, and a step is shorter than `1 / n`.
    have hfloor : (m * 2 ^ k : ℚ) < n * ((m * 2 ^ k / n : ℕ) + 1) := by
      exact_mod_cast Nat.lt_mul_div_succ (m * 2 ^ k) hn
    have hstep : (m / n : ℚ) - (m * 2 ^ k / n : ℕ) / 2 ^ k < 1 / 2 ^ k := by
      rw [sub_lt_iff_lt_add, ← add_div, div_lt_div_iff₀ hnpos hkpos]
      linarith
    refine hstep.trans (one_div_lt_one_div_of_lt hnpos ?_)
    exact_mod_cast hlow

/-- **The nearest number to a quotient lies between the same two integers.** -/
theorem floor_of_isNearest (hm : m < 2 ^ (precision - 1)) (hn : 0 < n) {x : ℚ}
    (h : IsNearest x (m / n)) : ⌊x⌋ = (m / n : ℕ) := by
  have hnpos : (0 : ℚ) < n := Nat.cast_pos.2 hn
  have hquot : ((m / n : ℕ) : ℚ) ≤ m / n := Nat.cast_div_le
  have hnext : (m / n : ℚ) + 1 / n ≤ (m / n : ℕ) + 1 := by
    rw [← add_div, div_le_iff₀' hnpos]
    exact_mod_cast Nat.lt_mul_div_succ m hn
  rw [Int.floor_eq_iff]
  constructor
  · -- The integer part is itself representable, so nothing below it is nearest.
    have hrep : Representable (m / n : ℕ) := by
      refine representable_natCast (lt_of_le_of_lt (Nat.div_le_self m n) (hm.trans ?_))
      decide
    by_contra hlt
    have hle := h.le_of_representable _ hrep
    rw [Int.cast_natCast, not_le] at hlt
    rw [abs_sub_comm, abs_of_nonneg (by linarith), abs_sub_comm, abs_of_nonneg (by linarith)] at hle
    linarith
  · obtain ⟨z, hz, hzle, hznear⟩ := exists_representable_near hm hn
    by_contra hge
    have hle := h.le_of_representable z hz
    rw [Int.cast_natCast, not_lt] at hge
    rw [abs_of_nonneg (by linarith [one_div_pos.2 hnpos]), abs_sub_comm,
      abs_of_nonneg (by linarith)] at hle
    linarith

theorem truncate_natCast_div_of_isNearest (hm : m < 2 ^ (precision - 1)) (hn : 0 < n) {x : ℚ}
    (h : IsNearest x (m / n)) : truncate x = truncate (m / n) := by
  have hfloor := floor_of_isNearest hm hn h
  have hnonneg : 0 ≤ x := by
    rw [← Int.floor_nonneg, hfloor]
    exact Int.natCast_nonneg _
  rw [truncate_of_nonneg hnonneg, hfloor, truncate_natCast_div]

end Quotient

/-- **The nearest number to a quotient has the integer part of the quotient**, if the dividend is
below half of what a mantissa can hold. -/
theorem truncate_of_isNearest {a b : ℤ} (ha : a.natAbs < 2 ^ (precision - 1)) (hb : b ≠ 0) {x : ℚ}
    (h : IsNearest x (a / b)) : truncate x = truncate (a / b) := by
  have hpos : 0 < b.natAbs := Int.natAbs_pos.2 hb
  rw [intCast_div_intCast] at h ⊢
  split at h
  · next hnegative =>
    have htruncate := truncate_natCast_div_of_isNearest ha hpos (neg_neg (_ / _ : ℚ) ▸ h.neg)
    rw [truncate_neg] at htruncate
    rw [if_pos hnegative, truncate_neg, ← htruncate, neg_neg]
  · next hpositive =>
    rw [if_neg hpositive]
    exact truncate_natCast_div_of_isNearest ha hpos h

/-! ### Rounding to the grid -/

/-- A number of at most 53 digits, or the next one: it has one digit too many, but the last of them
is a zero. -/
theorem representable_of_le {m : ℤ} (h₀ : 0 ≤ m) (h : m ≤ 2 ^ 53) (e : ℤ) :
    Representable (m * 2 ^ e) := by
  rcases h.lt_or_eq with hlt | rfl
  · exact ⟨m, e, by simp only [precision]; omega, rfl⟩
  · refine ⟨2 ^ 52, e + 1, by decide, ?_⟩
    rw [zpow_add_one₀ two_ne_zero]
    push_cast
    ring

/-- No integer is nearer to a number than one that is at most a half away. -/
theorem abs_sub_le_of_abs_sub_le_half {m : ℤ} {y : ℚ} (h : |m - y| ≤ 1 / 2) (k : ℤ) :
    |m - y| ≤ |k - y| := by
  rcases eq_or_ne k m with rfl | hne
  · exact le_rfl
  · have hone : (1 : ℚ) ≤ |(k : ℚ) - m| := by
      exact_mod_cast Int.one_le_abs (sub_ne_zero.2 hne)
    have htriangle := abs_sub_le (k : ℚ) y m
    rw [abs_sub_comm y (m : ℚ)] at htriangle
    linarith

/-- With a smaller exponent 53 digits come to less than the least number that has 53 digits. -/
theorem mul_zpow_le_of_lt {k e f : ℤ} (hk : k.natAbs < 2 ^ precision) (hfe : f < e) :
    (k * 2 ^ f : ℚ) ≤ 2 ^ 52 * 2 ^ e := by
  have hk' : (k : ℚ) ≤ 2 ^ 53 := by
    have : k ≤ 2 ^ 53 := by simp only [precision] at hk; omega
    exact_mod_cast this
  calc (k * 2 ^ f : ℚ) ≤ 2 ^ 53 * 2 ^ f := mul_le_mul_of_nonneg_right hk' (by positivity)
    _ = 2 ^ (53 + f) := by rw [zpow_add₀ two_ne_zero]; rfl
    _ ≤ 2 ^ (52 + e) := zpow_le_zpow_right₀ one_le_two (by omega)
    _ = 2 ^ 52 * 2 ^ e := by rw [zpow_add₀ two_ne_zero]; rfl

/-- **Rounding to the grid of 53 digits gives the nearest number.**  The number is taken to a place
where it has 53 binary digits before the point, and is rounded to an integer there. -/
theorem isNearest_of_grid {y : ℚ} {e m : ℤ} (hlow : 2 ^ 52 ≤ y / 2 ^ e) (hhigh : y / 2 ^ e < 2 ^ 53)
    (hm : |m - y / 2 ^ e| ≤ 1 / 2) : IsNearest (m * 2 ^ e) y := by
  have he : (0 : ℚ) < 2 ^ e := by positivity
  obtain ⟨hmlow, hmhigh⟩ := abs_le.1 hm
  -- The distances on the grid are those of the numbers, in units of the grid.
  have hscale : ∀ x : ℚ, |x * 2 ^ e - y| = |x - y / 2 ^ e| * 2 ^ e := by
    intro x
    rw [← abs_of_pos he, ← abs_mul, abs_of_pos he, sub_mul, div_mul_cancel₀ y he.ne']
  have hgrid : ∀ k : ℤ, |m * 2 ^ e - y| ≤ |(k : ℚ) * 2 ^ e - y| := by
    intro k
    rw [hscale, hscale]
    exact mul_le_mul_of_nonneg_right (abs_sub_le_of_abs_sub_le_half hm k) he.le
  refine ⟨?_, ?_⟩
  · have hle : (m : ℚ) < 2 ^ 53 + 1 := by linarith
    have hge : (0 : ℚ) < m := by linarith
    refine representable_of_le (by exact_mod_cast hge.le) ?_ e
    exact Int.lt_add_one_iff.1 (by exact_mod_cast hle)
  · rintro z ⟨k, f, hk, rfl⟩
    rcases le_or_gt e f with hef | hfe
    · -- The other number is on the grid too.
      obtain ⟨d, rfl⟩ := Int.le.dest hef
      have hz : (k : ℚ) * 2 ^ (e + d : ℤ) = (k * 2 ^ d : ℤ) * 2 ^ e := by
        rw [zpow_add₀ two_ne_zero, zpow_natCast]
        push_cast
        ring
      rw [hz]
      exact hgrid _
    · -- The least number with 53 digits is on the grid, and between the other number and this one.
      have hsmall := mul_zpow_le_of_lt hk hfe
      have hy : 2 ^ 52 * 2 ^ e ≤ y := (le_div_iff₀ he).1 hlow
      calc |(m : ℚ) * 2 ^ e - y| ≤ |((2 ^ 52 : ℤ) : ℚ) * 2 ^ e - y| := hgrid _
        _ = |2 ^ 52 * 2 ^ e - y| := by push_cast; rfl
        _ = y - 2 ^ 52 * 2 ^ e := by rw [abs_sub_comm, abs_of_nonneg (by linarith)]
        _ ≤ y - k * 2 ^ f := by linarith
        _ = |(k : ℚ) * 2 ^ f - y| := by rw [abs_sub_comm, abs_of_nonneg (by linarith)]

namespace Binary64

/-- The value of a finite number. -/
def toRat? : Binary64 → Option ℚ
  | finite negative mantissa exponent =>
    some (if negative then -(mantissa * 2 ^ exponent) else mantissa * 2 ^ exponent)
  | _ => none

theorem floor_mul_zpow (n : ℕ) (e : ℤ) :
    ⌊(n * 2 ^ e : ℚ)⌋ =
      (if 0 ≤ e then n * Nat.pow 2 e.toNat else n / Nat.pow 2 (-e).toNat : ℕ) := by
  split
  · next h =>
    have hpow : (2 : ℚ) ^ e = 2 ^ e.toNat := by rw [← zpow_natCast, Int.toNat_of_nonneg h]
    rw [Nat.pow_eq, hpow]
    exact_mod_cast Int.floor_natCast (n * 2 ^ e.toNat)
  · next h =>
    have hpow : (2 : ℚ) ^ e = ((2 ^ (-e).toNat : ℕ) : ℚ)⁻¹ := by
      push_cast
      rw [← zpow_natCast, Int.toNat_of_nonneg (by omega), zpow_neg, inv_inv]
    rw [Nat.pow_eq, hpow, ← div_eq_mul_inv, Rat.floor_natCast_div_natCast]
    rfl

/-- Dropping the fraction of a number is dropping that of its value. -/
theorem truncate?_eq {x : Binary64} {q : ℚ} (h : x.toRat? = some q) :
    x.truncate? = some (truncate q) := by
  cases x with
  | finite negative mantissa exponent =>
    have hnonneg : (0 : ℚ) ≤ mantissa * 2 ^ exponent := by positivity
    obtain rfl := Option.some.inj h
    rw [truncate?, ← floor_mul_zpow, ← truncate_of_nonneg hnonneg]
    cases negative with
    | true => exact congrArg some (truncate_neg _).symm
    | false => rfl
  | infinite negative => cases h
  | nan => cases h

/-! ### Rounding a fraction -/

/-- A quotient is rounded to an integer at most a half away. -/
theorem abs_roundDiv_sub_le (n : ℕ) {d : ℕ} (hd : 0 < d) :
    |(roundDiv n d : ℚ) - n / d| ≤ 1 / 2 := by
  have hdpos : (0 : ℚ) < d := Nat.cast_pos.2 hd
  have hquot : (n / d : ℚ) = (n / d : ℕ) + (n % d : ℕ) / d := by
    rw [eq_comm, ← eq_sub_iff_add_eq', div_eq_iff hdpos.ne', sub_mul, div_mul_cancel₀ _ hdpos.ne',
      eq_sub_iff_add_eq']
    exact_mod_cast Nat.div_add_mod' n d
  have hrest : ((n % d : ℕ) : ℚ) / d < 1 := (div_lt_one hdpos).2 (by exact_mod_cast Nat.mod_lt n hd)
  have hrest₀ : 0 ≤ ((n % d : ℕ) : ℚ) / d := by positivity
  have hdown : 2 * (n % d) ≤ d → ((n % d : ℕ) : ℚ) / d ≤ 1 / 2 := by
    intro h
    rw [div_le_div_iff₀ hdpos two_pos, one_mul, mul_comm]
    exact_mod_cast h
  have hup : d ≤ 2 * (n % d) → 1 / 2 ≤ ((n % d : ℕ) : ℚ) / d := by
    intro h
    rw [div_le_div_iff₀ two_pos hdpos, one_mul, mul_comm]
    exact_mod_cast h
  rw [hquot, abs_le, roundDiv]
  split
  · next hless =>
    have hhalf := hdown hless.le
    constructor <;> linarith
  split
  · next hmore =>
    have hhalf := hup hmore.le
    push_cast
    constructor <;> linarith
  -- The rest is exactly a half, and the parity decides.
  split
  · next hmost _ =>
    have hhalf := hdown (not_lt.1 hmost)
    constructor <;> linarith
  · next hleast _ _ =>
    have hhalf := hup (not_lt.1 hleast)
    push_cast
    constructor <;> linarith

/-- Scaling divides a fraction by a power of two. -/
theorem scaled_div (num den : ℕ) (e : ℤ) :
    ((scaled num den e).1 / (scaled num den e).2 : ℚ) = num / den / 2 ^ e := by
  unfold scaled
  split
  · next h =>
    have hpow : (2 : ℚ) ^ e = 2 ^ e.toNat := by rw [← zpow_natCast, Int.toNat_of_nonneg h]
    rw [Nat.pow_eq, hpow, div_div]
    push_cast
    rfl
  · next h =>
    have hpow : ((2 : ℚ) ^ e)⁻¹ = 2 ^ (-e).toNat := by
      rw [← zpow_neg, ← zpow_natCast, Int.toNat_of_nonneg (by omega)]
    rw [Nat.pow_eq, div_eq_mul_inv _ ((2 : ℚ) ^ e), hpow, div_mul_eq_mul_div]
    push_cast
    rfl

theorem scaled_snd_pos (num : ℕ) {den : ℕ} (hden : 0 < den) (e : ℤ) :
    0 < (scaled num den e).2 := by
  unfold scaled
  split
  · exact Nat.mul_pos hden (Nat.pow_pos two_pos)
  · exact hden

section OfFraction

variable {num den : ℕ} (hnum : 0 < num) (hden : 0 < den)
include hnum hden

/-- The lengths of the numerator and the denominator give the size of a fraction up to a factor of
two. -/
theorem div_zpow_log2 :
    (2 : ℚ) ^ 52 ≤ num / den / 2 ^ (num.log2 - den.log2 - 53 : ℤ) ∧
      num / den / 2 ^ (num.log2 - den.log2 - 53 : ℤ) < (2 : ℚ) ^ 54 := by
  have hdenpos : (0 : ℚ) < den := Nat.cast_pos.2 hden
  have hnumlow : (2 : ℚ) ^ num.log2 ≤ num := by exact_mod_cast Nat.log2_self_le hnum.ne'
  have hnumhigh : (num : ℚ) < 2 ^ (num.log2 + 1) := by exact_mod_cast Nat.lt_log2_self
  have hdenlow : (2 : ℚ) ^ den.log2 ≤ den := by exact_mod_cast Nat.log2_self_le hden.ne'
  have hdenhigh : (den : ℚ) < 2 ^ (den.log2 + 1) := by exact_mod_cast Nat.lt_log2_self
  have hpow : (2 : ℚ) ^ (num.log2 - den.log2 - 53 : ℤ) = 2 ^ num.log2 / 2 ^ den.log2 / 2 ^ 53 := by
    rw [zpow_sub₀ two_ne_zero, zpow_sub₀ two_ne_zero]
    norm_cast
  rw [hpow, div_div, le_div_iff₀ (by positivity), div_lt_iff₀ (by positivity)]
  constructor
  · calc (2 : ℚ) ^ 52 * (den * (2 ^ num.log2 / 2 ^ den.log2 / 2 ^ 53))
        = den / 2 ^ (den.log2 + 1) * 2 ^ num.log2 := by field_simp; ring
      _ ≤ 1 * 2 ^ num.log2 :=
        mul_le_mul_of_nonneg_right ((div_le_one (by positivity)).2 hdenhigh.le) (by positivity)
      _ ≤ num := by rwa [one_mul]
  · calc (num : ℚ) < 1 * 2 ^ (num.log2 + 1) := by rwa [one_mul]
      _ ≤ den / 2 ^ den.log2 * 2 ^ (num.log2 + 1) :=
        mul_le_mul_of_nonneg_right ((one_le_div (by positivity)).2 hdenlow) (by positivity)
      _ = 2 ^ 54 * (den * (2 ^ num.log2 / 2 ^ den.log2 / 2 ^ 53)) := by field_simp; ring

/-- **The exponent leaves 53 binary digits before the point.** -/
theorem exponentFor_spec (h : minExponent ≤ num.log2 - den.log2 - 53) :
    (2 : ℚ) ^ 52 ≤ num / den / 2 ^ exponentFor num den ∧
      num / den / 2 ^ exponentFor num den < (2 : ℚ) ^ 53 ∧
      exponentFor num den ≤ num.log2 - den.log2 - 52 := by
  set guess : ℤ := num.log2 - den.log2 - 53 with hguess
  obtain ⟨hlow, hhigh⟩ := div_zpow_log2 hnum hden
  rw [← hguess] at hlow hhigh
  have hlt : (scaled num den guess).1 / (scaled num den guess).2 < 2 ^ 53 ↔
      num / den / 2 ^ guess < (2 : ℚ) ^ 53 := by
    have hpos := scaled_snd_pos num hden guess
    rw [← scaled_div, Nat.div_lt_iff_lt_mul hpos, div_lt_iff₀ (Nat.cast_pos.2 hpos)]
    norm_cast
  have hexponent : exponentFor num den =
      if num / den / 2 ^ guess < (2 : ℚ) ^ 53 then guess else guess + 1 := by
    have hmax : max ((num.log2 : ℤ) - den.log2 - precision) minExponent = guess := max_eq_left h
    rw [← if_congr hlt rfl rfl]
    simp only [exponentFor, hmax]
    rfl
  rw [hexponent]
  split
  · next hsmall => exact ⟨hlow, hsmall, by omega⟩
  · next hlarge =>
    have hhalf : num / den / 2 ^ (guess + 1) = num / den / (2 : ℚ) ^ guess / 2 := by
      rw [zpow_add_one₀ two_ne_zero, ← div_div]
    rw [hhalf]
    refine ⟨?_, ?_, by omega⟩
    · linarith [not_lt.1 hlarge]
    · linarith

/-- **A fraction is rounded to the nearest number**, if that is neither too small nor too large. -/
theorem exists_isNearest_ofFraction (negative : Bool)
    (hlow : minExponent ≤ num.log2 - den.log2 - 53)
    (hhigh : num.log2 - den.log2 - 51 ≤ maxExponent) :
    ∃ x, IsNearest x (num / den) ∧
      (ofFraction negative num den).toRat? = some (if negative then -x else x) := by
  obtain ⟨hdigits, hdigits', hexponent⟩ := exponentFor_spec hnum hden hlow
  have hround := abs_roundDiv_sub_le (scaled num den (exponentFor num den)).1
    (scaled_snd_pos num hden (exponentFor num den))
  rw [scaled_div, ← Int.cast_natCast] at hround
  refine ⟨_, isNearest_of_grid hdigits hdigits' hround, ?_⟩
  unfold ofFraction
  simp only
  split
  · next hcarry =>
    have hvalue : ((Nat.pow 2 (precision - 1) : ℕ) : ℚ) * 2 ^ (exponentFor num den + 1) =
        ((Nat.pow 2 precision : ℕ) : ℤ) * 2 ^ exponentFor num den := by
      rw [zpow_add_one₀ two_ne_zero]
      simp only [Nat.pow_eq, precision]
      push_cast
      ring
    rw [if_neg (by omega), toRat?, hcarry, hvalue]
  · rw [if_neg (by omega)]
    rfl

end OfFraction

theorem log2_lt_precision {n : ℕ} (h : n < 2 ^ precision) : n.log2 < precision := by
  rcases Nat.eq_zero_or_pos n with rfl | hpos
  · decide
  · exact (Nat.log2_lt hpos.ne').2 h

/-- **The quotient of two integers is rounded to the nearest number.** -/
theorem exists_isNearest_ofQuotient {a b : ℤ} (ha : a.natAbs < 2 ^ precision)
    (hb : b.natAbs < 2 ^ precision) (hb0 : b ≠ 0) :
    ∃ x, (ofQuotient a b).toRat? = some x ∧ IsNearest x (a / b) := by
  unfold ofQuotient
  simp only
  split
  · next ha0 =>
    subst ha0
    refine ⟨0, ?_, ?_⟩
    · simp [toRat?]
    · rw [Int.cast_zero, zero_div]
      exact isNearest_self (representable_natCast (n := 0) (by decide))
  · next ha0 =>
    have halog := log2_lt_precision ha
    have hblog := log2_lt_precision hb
    simp only [precision] at halog hblog
    obtain ⟨x, hx, hvalue⟩ := exists_isNearest_ofFraction (Int.natAbs_pos.2 ha0)
      (Int.natAbs_pos.2 hb0) (decide (a < 0) != decide (b < 0))
      (by simp only [minExponent]; omega) (by simp only [maxExponent]; omega)
    refine ⟨_, hvalue, ?_⟩
    rw [intCast_div_intCast]
    split
    · exact hx.neg
    · exact hx

/-- **A quotient that is rounded to the nearest number has the integer part of the exact one**, as
long as the dividend and the divisor are below half of what a mantissa can hold. -/
theorem truncate?_ofQuotient {a b : ℤ} (ha : a.natAbs < 2 ^ (precision - 1))
    (hb : b.natAbs < 2 ^ precision) (hb0 : b ≠ 0) :
    (ofQuotient a b).truncate? = some (a.tdiv b) := by
  have hle : 2 ^ (precision - 1) ≤ 2 ^ precision := by decide
  obtain ⟨x, hvalue, hx⟩ := exists_isNearest_ofQuotient (ha.trans_le hle) hb hb0
  rw [truncate?_eq hvalue, truncate_of_isNearest ha hb0 hx, truncate_intCast_div]

end Binary64

end Tabletop.Number
