import Tabletop.Text.CharRange

/-!
# Decimal digits

Every script writes its decimal digits with ten consecutive characters, so the whole class is
given by the characters for zero.  A numeral may be written in any of them.

## Main definitions

* `digitZeros` — the zero of each script.
* `digitValue?`, `isDigit` — the value of a digit, and the class of digits.
* `numeralValue` — the number that a run of digits writes.
* `digitsOf` — the digits `0` to `9` that write a number.

## Main results

* `numeralValue_digitsOf` — the digits of a number write it.
-/

namespace Tabletop.Text

/-- The code points of the characters for zero. -/
def digitZeros : List Nat :=
  [0x30, 0x660, 0x6F0, 0x7C0, 0x966, 0x9E6, 0xA66, 0xAE6, 0xB66, 0xBE6, 0xC66, 0xCE6, 0xD66,
   0xDE6, 0xE50, 0xED0, 0xF20, 0x1040, 0x1090, 0x17E0, 0x1810, 0x1946, 0x19D0, 0x1A80, 0x1A90,
   0x1B50, 0x1BB0, 0x1C40, 0x1C50, 0xA620, 0xA8D0, 0xA900, 0xA9D0, 0xA9F0, 0xAA50, 0xABF0,
   0xFF10, 0x104A0, 0x10D30, 0x11066, 0x110F0, 0x11136, 0x111D0, 0x112F0, 0x11450, 0x114D0,
   0x11650, 0x116C0, 0x11730, 0x118E0, 0x11950, 0x11C50, 0x11D50, 0x11DA0, 0x16A60, 0x16AC0,
   0x16B50, 0x1D7CE, 0x1D7D8, 0x1D7E2, 0x1D7EC, 0x1D7F6, 0x1E140, 0x1E2F0, 0x1E950, 0x1FBF0]

/-- The value of a decimal digit of any script. -/
def digitValue? (c : Char) : Option Nat :=
  (digitZeros.find? fun z => decide (z ≤ c.toNat) && decide (c.toNat < z + 10)).map (c.toNat - ·)

/-- Whether a character is a decimal digit of some script. -/
def isDigit (c : Char) : Bool := (digitValue? c).isSome

/-- The number written by a run of digits, the first being the most significant. -/
def numeralValue (digits : List Char) : Nat :=
  digits.foldl (fun n c => 10 * n + (digitValue? c).getD 0) 0

/-- No digits write zero. -/
@[simp] theorem numeralValue_nil : numeralValue [] = 0 := rfl

/-- A further digit counts once and all before it ten times. -/
theorem numeralValue_append_singleton (ds : List Char) (c : Char) :
    numeralValue (ds ++ [c]) = 10 * numeralValue ds + (digitValue? c).getD 0 := by
  rw [numeralValue, List.foldl_append]
  rfl

/-- A digit is less than ten. -/
theorem getD_digitValue?_lt (c : Char) : (digitValue? c).getD 0 < 10 := by
  rw [digitValue?]
  rcases hzero : digitZeros.find? _ with _ | z
  · exact Nat.zero_lt_succ 9
  · have hz := List.find?_some hzero
    rw [Bool.and_eq_true, decide_eq_true_eq, decide_eq_true_eq] at hz
    show c.toNat - z < 10
    omega

/-- The decimal digits of a number, without leading zeros. -/
def digitsOf (n : Nat) : List Char := Nat.toDigits 10 n

/-- The digits of a number are those of its tenth and a last one. -/
theorem digitsOf_eq_if (n : Nat) :
    digitsOf n =
      if n < 10 then [Nat.digitChar n] else digitsOf (n / 10) ++ [Nat.digitChar (n % 10)] :=
  Nat.toDigits_eq_if (by decide)

/-- The digits `0` to `9` have their values. -/
theorem digitValue?_digitChar {d : Nat} (h : d < 10) : digitValue? (Nat.digitChar d) = some d := by
  match d, h with
  | 0, _ => decide
  | 1, _ => decide
  | 2, _ => decide
  | 3, _ => decide
  | 4, _ => decide
  | 5, _ => decide
  | 6, _ => decide
  | 7, _ => decide
  | 8, _ => decide
  | 9, _ => decide
  | _ + 10, h => exact absurd h (by omega)

/-- The digits of a number write it. -/
@[simp] theorem numeralValue_digitsOf (n : Nat) : numeralValue (digitsOf n) = n := by
  induction n using Nat.strongRecOn with
  | _ n ih =>
    rw [digitsOf_eq_if]
    by_cases hn : n < 10
    · rw [if_pos hn, numeralValue, List.foldl_cons, List.foldl_nil, digitValue?_digitChar hn]
      simp
    · -- The digits before the last one write the tenth.
      have hlt : n / 10 < n := Nat.div_lt_self (by omega) (by decide)
      rw [if_neg hn, numeralValue_append_singleton, ih (n / 10) hlt,
        digitValue?_digitChar (Nat.mod_lt n (by decide))]
      exact Nat.div_add_mod n 10

/-- The digits of a number are digits. -/
theorem isDigit_of_mem_digitsOf {n : Nat} {c : Char} (h : c ∈ digitsOf n) : isDigit c = true := by
  induction n using Nat.strongRecOn with
  | _ n ih =>
    rw [digitsOf_eq_if] at h
    by_cases hn : n < 10
    · rw [if_pos hn, List.mem_singleton] at h
      rw [h, isDigit, digitValue?_digitChar hn]
      rfl
    · rw [if_neg hn, List.mem_append, List.mem_singleton] at h
      rcases h with h | h
      · exact ih (n / 10) (Nat.div_lt_self (by omega) (by decide)) h
      · rw [h, isDigit, digitValue?_digitChar (Nat.mod_lt n (by decide))]
        rfl

/-- Every number has a digit. -/
theorem digitsOf_ne_nil (n : Nat) : digitsOf n ≠ [] := Nat.toDigits_ne_nil

/-- The decimal text of an integer. -/
def intText (n : Int) : String := toString n

/-- The text of an integer that is not negative holds its digits. -/
@[simp] theorem toList_intText_natCast (n : Nat) : (intText n).toList = digitsOf n := by
  show (Nat.repr n).toList = digitsOf n
  rw [Nat.repr_eq_ofList_toDigits, String.toList_ofList]
  rfl

/-- The text of a negative integer is a minus and the digits of its size. -/
@[simp] theorem toList_intText_negSucc (n : Nat) :
    (intText (Int.negSucc n)).toList = '-' :: digitsOf (n + 1) := by
  show ("-" ++ Nat.repr (n + 1)).toList = '-' :: digitsOf (n + 1)
  rw [String.toList_append, Nat.repr_eq_ofList_toDigits,
    @String.toList_ofList (Nat.toDigits 10 (n + 1))]
  rfl

end Tabletop.Text
