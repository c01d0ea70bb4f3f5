/-!
# Binary floating-point numbers

The numbers that a decimal text with a fraction or an exponent stands for: those with 53 binary
digits and an exponent of bounded size, infinities, and one value that is no number.  A decimal is
rounded to the nearest of them; of two that are equally near the one with the even last digit is
taken.  All arithmetic is on integers.

## Main definitions

* `Binary64` — the numbers.
* `Binary64.ofDecimal` — the number nearest to a decimal.
* `Binary64.ofQuotient` — the number nearest to the quotient of two integers.
* `Binary64.toInt?` — the integer that a number is, if it is one.
* `Binary64.floor?` — the greatest integer that is not above a number.
* `Binary64.truncate?` — a number with its fraction dropped.
-/

namespace Tabletop.Number

/-- A binary floating-point number. -/
inductive Binary64 where
  /-- The number `± mantissa · 2 ^ exponent`. -/
  | finite (negative : Bool) (mantissa : Nat) (exponent : Int)
  /-- An infinity. -/
  | infinite (negative : Bool)
  /-- No number. -/
  | nan
  deriving DecidableEq, Repr

namespace Binary64

/-- The number of binary digits of a mantissa. -/
def precision : Nat := 53

/-- The least exponent. -/
def minExponent : Int := -1074

/-- The largest exponent. -/
def maxExponent : Int := 971

/-- The quotient rounded to the nearest integer, a half going to the even neighbour. -/
def roundDiv (num den : Nat) : Nat :=
  let q := num / den
  let r := num % den
  if 2 * r < den then q
  else if den < 2 * r then q + 1
  else if q % 2 = 0 then q
  else q + 1

/-- The fraction `num / (den · 2 ^ exponent)` as a numerator and a denominator. -/
def scaled (num den : Nat) (exponent : Int) : Nat × Nat :=
  if 0 ≤ exponent then (num, den * Nat.pow 2 exponent.toNat)
  else (num * Nat.pow 2 (-exponent).toNat, den)

/-- The exponent with which a positive fraction has all the binary digits of a mantissa. -/
def exponentFor (num den : Nat) : Int :=
  let guess : Int := max ((num.log2 : Int) - den.log2 - precision) minExponent
  let (n, d) := scaled num den guess
  if n / d < Nat.pow 2 precision then guess else guess + 1

/-- The number nearest to a positive fraction. -/
def ofFraction (negative : Bool) (num den : Nat) : Binary64 :=
  let exponent := exponentFor num den
  let (n, d) := scaled num den exponent
  let mantissa := roundDiv n d
  -- Rounding up may have given one binary digit too many.
  let (mantissa, exponent) :=
    if mantissa = Nat.pow 2 precision then (Nat.pow 2 (precision - 1), exponent + 1)
    else (mantissa, exponent)
  if maxExponent < exponent then infinite negative else finite negative mantissa exponent

/-- The number nearest to `± digits · 10 ^ exponent`. -/
def ofDecimal (negative : Bool) (digits : Nat) (exponent : Int) : Binary64 :=
  -- A decimal that is far too small or far too large needs no division.
  let size : Int := (Nat.toDigits 10 digits).length + exponent
  if digits = 0 ∨ size < -400 then finite negative 0 minExponent
  else if 400 < size then infinite negative
  else if 0 ≤ exponent then ofFraction negative (digits * Nat.pow 10 exponent.toNat) 1
  else ofFraction negative digits (Nat.pow 10 (-exponent).toNat)

/-- The number nearest to the quotient of two integers, the second of which is not zero. -/
def ofQuotient (a b : Int) : Binary64 :=
  let negative := decide (a < 0) != decide (b < 0)
  if a = 0 then finite negative 0 minExponent else ofFraction negative a.natAbs b.natAbs

/-- Whether a number is neither infinite nor no number at all. -/
def isFinite : Binary64 → Bool
  | finite _ _ _ => true
  | _ => false

/-- The integer that a number is, if it is one. -/
def toInt? : Binary64 → Option Int
  | finite negative mantissa exponent =>
    let size? : Option Nat :=
      if 0 ≤ exponent then some (mantissa * Nat.pow 2 exponent.toNat)
      else if mantissa % Nat.pow 2 (-exponent).toNat = 0 then
        some (mantissa / Nat.pow 2 (-exponent).toNat)
      else none
    size?.map fun n => if negative then -(n : Int) else n
  | _ => none

/-- The greatest integer that is not above a number, if the number is finite. -/
def floor? : Binary64 → Option Int
  | finite negative mantissa exponent =>
    let signed : Int := if negative then -(mantissa : Int) else mantissa
    some (if 0 ≤ exponent then signed * (Nat.pow 2 exponent.toNat : Nat)
      else signed / (Nat.pow 2 (-exponent).toNat : Nat))
  | _ => none

/-- The number with its fraction dropped, if it is finite. -/
def truncate? : Binary64 → Option Int
  | finite negative mantissa exponent =>
    let size : Nat :=
      if 0 ≤ exponent then mantissa * Nat.pow 2 exponent.toNat
      else mantissa / Nat.pow 2 (-exponent).toNat
    some (if negative then -(size : Int) else size)
  | _ => none

end Binary64

end Tabletop.Number
