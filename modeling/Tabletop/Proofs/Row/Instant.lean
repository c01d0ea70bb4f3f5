import Mathlib.Algebra.GroupWithZero.Nat
import Tabletop.Row.Moment

/-!
# How the clock is written into rows

A row is dated with the instant at which it was written: the day, the time of day down to the
second, the millionths of a second unless there are none, and the distance from universal time,
which is zero.  Each number has as many digits as the largest of its kind.  A row dated like this
is always read back.

## Main definitions

* `padded` — a number with leading zeros.
* `Instant`, `Instant.text` — what the clock may say, and how it is written.

## Main results

* `takeDigits_padded` — a padded number is read as that number.
* `readMoment_text` — **an instant is read as a moment of the calendar.**
-/

namespace Tabletop.Row

open Json Text

/-! ### Padded numbers -/

/-- A number with leading zeros, so that it has so many digits. -/
def padded : Nat → Nat → List Char
  | 0, _ => []
  | width + 1, n => padded width (n / 10) ++ [Nat.digitChar (n % 10)]

@[simp] theorem length_padded (width n : Nat) : (padded width n).length = width := by
  induction width generalizing n with
  | zero => rfl
  | succ width ih => rw [padded, List.length_append, ih, List.length_singleton]

theorem isDigit_padded (width n : Nat) : ∀ c ∈ padded width n, c.isDigit = true := by
  induction width generalizing n with
  | zero => simp [padded]
  | succ width ih =>
    intro c hc
    rw [padded, List.mem_append, List.mem_singleton] at hc
    rcases hc with hbefore | rfl
    · exact ih (n / 10) c hbefore
    · rw [Nat.isDigit_digitChar, decide_eq_true_eq]
      exact Nat.mod_lt n (by decide)

/-- Leading zeros do not change a number. -/
theorem numeralValue_padded {width n : Nat} (h : n < 10 ^ width) :
    numeralValue (padded width n) = n := by
  induction width generalizing n with
  | zero =>
    rw [Nat.pow_zero, Nat.lt_one_iff] at h
    exact h.symm
  | succ width ih =>
    -- The tenth fits into one digit less.
    have htenth : n / 10 < 10 ^ width := by
      rw [Nat.pow_succ] at h
      omega
    rw [padded, numeralValue_append_singleton, ih htenth,
      digitValue?_digitChar (Nat.mod_lt n (by decide))]
    exact Nat.div_add_mod n 10

/-- **A padded number is read as that number**, whatever follows it. -/
theorem takeDigits_padded {width n : Nat} (h : n < 10 ^ width) (rest : List Char) :
    takeDigits width (padded width n ++ rest) = some (n, rest) := by
  have htake : (padded width n ++ rest).take width = padded width n :=
    List.take_left' (length_padded width n)
  have hdrop : (padded width n ++ rest).drop width = rest :=
    List.drop_left' (length_padded width n)
  have hdigits : (padded width n).all Char.isDigit = true :=
    List.all_eq_true.2 (isDigit_padded width n)
  rw [takeDigits, htake, hdrop, numeralValue_padded h]
  exact if_pos ⟨length_padded width n, hdigits⟩

/-! ### Instants -/

/-- What the clock may say: a day of the calendar and a time of that day. -/
structure Instant where
  /-- The year. -/
  year : Nat
  /-- The month. -/
  month : Nat
  /-- The day of the month. -/
  day : Nat
  /-- The hour. -/
  hour : Nat
  /-- The minute. -/
  minute : Nat
  /-- The second. -/
  second : Nat
  /-- The millionths of a second. -/
  micro : Nat
  year_bounds : 1 ≤ year ∧ year ≤ 9999
  month_bounds : 1 ≤ month ∧ month ≤ 12
  day_bounds : 1 ≤ day ∧ day ≤ daysOfMonth year month
  hour_le : hour ≤ 23
  minute_le : minute ≤ 59
  second_le : second ≤ 59
  micro_lt : micro < 1000000

namespace Instant

/-- The millionths of a second behind their point, and the distance from universal time. -/
def fractionChars (i : Instant) : List Char :=
  (if i.micro = 0 then [] else '.' :: padded 6 i.micro) ++ "+00:00".toList

/-- The time of day. -/
def timeChars (i : Instant) : List Char :=
  padded 2 i.hour ++ ':' :: (padded 2 i.minute ++ ':' :: (padded 2 i.second ++ i.fractionChars))

/-- An instant as it is written. -/
def text (i : Instant) : String :=
  String.ofList (padded 4 i.year ++ '-' :: (padded 2 i.month ++ '-' ::
    (padded 2 i.day ++ 'T' :: i.timeChars)))

variable (i : Instant)

theorem daysOfMonth_le (year month : Nat) : daysOfMonth year month ≤ 31 := by
  unfold daysOfMonth
  split
  · split
    · decide
    · decide
  · split
    · decide
    · decide

theorem isOffset_universal : isOffset "+00:00".toList = true := by decide

theorem isFraction_padded (width n : Nat) (hwidth : width ≠ 0) :
    isFraction (padded width n ++ "+00:00".toList) = true := by
  have hdigits := isDigit_padded width n
  have hne : padded width n ≠ [] := by
    rw [← List.length_pos_iff, length_padded]
    exact Nat.pos_of_ne_zero hwidth
  rw [isFraction, List.takeWhile_append_of_pos hdigits, List.dropWhile_append_of_pos hdigits]
  simpa [hne] using isOffset_universal

theorem isTimeOfDay_timeChars : isTimeOfDay i.timeChars = true := by
  have hhour := i.hour_le
  have hminute := i.minute_le
  have hsecond := i.second_le
  -- Hour and minute are read by a reader of their own, the seconds after it.
  have hrest : afterMinute? true i.timeChars =
      some (':' :: (padded 2 i.second ++ i.fractionChars)) := by
    rw [afterMinute?, timeChars, takeDigits_padded (by omega)]
    simp only [List.head?_cons, List.tail_cons, if_true, Option.bind_some]
    rw [takeDigits_padded (by omega)]
    exact if_pos ⟨hhour, hminute⟩
  rw [isTimeOfDay, hrest]
  simp only
  rw [takeDigits_padded (by omega)]
  simp only [hsecond, decide_true, Bool.true_and]
  -- An instant at a full second is written without millionths.
  by_cases hmicro : i.micro = 0
  · rw [fractionChars, if_pos hmicro]
    exact isOffset_universal
  · rw [fractionChars, if_neg hmicro]
    exact isFraction_padded 6 i.micro (by decide)

/-- **An instant is read as a moment of the calendar.** -/
theorem readMoment_text : readMoment (.string i.text) = .ok true := by
  have hyear := i.year_bounds
  have hmonth := i.month_bounds
  have hday := i.day_bounds
  have hdays := daysOfMonth_le i.year i.month
  have hera : dayEra? i.text.toList = some (.calendar, 'T' :: i.timeChars) := by
    rw [text, String.toList_ofList, dayEra?, takeDigits_padded (by omega)]
    simp only
    rw [takeDigits_padded (by omega)]
    simp only
    rw [takeDigits_padded (by omega)]
    simp only
    rw [if_pos ⟨hmonth.1, hmonth.2, hday⟩, if_neg (by omega : i.year ≠ 0)]
  have htext : textEra? i.text.toList = some .calendar := by
    rw [textEra?, hera]
    exact if_pos (Bool.and_eq_true_iff.2 ⟨rfl, i.isTimeOfDay_timeChars⟩)
  rw [readMoment, htext]

end Instant

end Tabletop.Row
