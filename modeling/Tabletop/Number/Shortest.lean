import Tabletop.Number.Binary64

/-!
# The shortest decimal text

A floating-point number is shown with the fewest significant digits that read back as the same
number; of several such decimals the one nearest to the number is taken, and of two that are equally
near the one with the even last digit.  For each number of digits only the two neighbours of the
number on the decimal grid of that length have to be tried.

Numbers from a ten-thousandth up to ten to the sixteenth are written positionally and keep at least
one digit behind the point; all others have an exponent of at least two digits with its sign.

## Main definitions

* `shortest` — the digits and the decimal exponent.
* `Binary64.text` — the text of a number.
-/

namespace Tabletop.Number

/-- A positive fraction. -/
structure Fraction where
  /-- The numerator. -/
  num : Nat
  /-- The denominator. -/
  den : Nat
  deriving DecidableEq, Repr

namespace Fraction

/-- The fraction `n · 2 ^ e`. -/
def ofBinary (n : Nat) (e : Int) : Fraction :=
  if 0 ≤ e then ⟨n * Nat.pow 2 e.toNat, 1⟩ else ⟨n, Nat.pow 2 (-e).toNat⟩

/-- The fraction `n · 10 ^ e`. -/
def ofDecimal (n : Nat) (e : Int) : Fraction :=
  if 0 ≤ e then ⟨n * Nat.pow 10 e.toNat, 1⟩ else ⟨n, Nat.pow 10 (-e).toNat⟩

/-- Whether one fraction is less than another. -/
def lt (a b : Fraction) : Bool := decide (a.num * b.den < b.num * a.den)

/-- The distance of two fractions. -/
def distance (a b : Fraction) : Fraction :=
  ⟨(a.num * b.den - b.num * a.den) + (b.num * a.den - a.num * b.den), a.den * b.den⟩

/-- The largest integer `d` with `d · 10 ^ e` not above the fraction. -/
def floorAt (a : Fraction) (e : Int) : Nat :=
  if 0 ≤ e then a.num / (a.den * Nat.pow 10 e.toNat)
  else a.num * Nat.pow 10 (-e).toNat / a.den

end Fraction

/-- The bounds of the decimals that read back as `mantissa · 2 ^ exponent`. -/
def readingBounds (mantissa : Nat) (exponent : Int) : Fraction × Fraction :=
  let upper := Fraction.ofBinary (2 * mantissa + 1) (exponent - 1)
  if mantissa = Nat.pow 2 (Binary64.precision - 1) ∧ Binary64.minExponent < exponent then
    (Fraction.ofBinary (4 * mantissa - 1) (exponent - 2), upper)
  else (Fraction.ofBinary (2 * mantissa - 1) (exponent - 1), upper)

/-- Whether a decimal reads back as the number: it is between the bounds, or at one of them if the
mantissa is even. -/
def readsBack (mantissa : Nat) (exponent : Int) (decimal : Fraction) : Bool :=
  let (lower, upper) := readingBounds mantissa exponent
  if mantissa % 2 = 0 then !decimal.lt lower && !upper.lt decimal
  else lower.lt decimal && decimal.lt upper

/-- The decimal on the grid `10 ^ e` that reads back as the number, the nearer one of two; of two
that are equally near the even one. -/
def onGrid? (mantissa : Nat) (exponent : Int) (e : Int) : Option (Nat × Int) :=
  let value := Fraction.ofBinary mantissa exponent
  let below := value.floorAt e
  let down := Fraction.ofDecimal below e
  let up := Fraction.ofDecimal (below + 1) e
  match readsBack mantissa exponent down, readsBack mantissa exponent up with
  -- Both neighbours read back: the nearer one, and the even one of two that are equally near.
  | true, true =>
    if (up.distance value).lt (down.distance value) then some (below + 1, e)
    else if (down.distance value).lt (up.distance value) then some (below, e)
    else some (if below % 2 = 0 then below else below + 1, e)
  | true, false => some (below, e)
  | false, true => some (below + 1, e)
  | false, false => none

/-- Tries the grids from the coarse one on, each ten times finer than the one before. -/
def firstGrid (mantissa : Nat) (exponent : Int) (e : Int) : Nat → Nat × Int
  | 0 => ((Fraction.ofBinary mantissa exponent).floorAt e, e)
  | n + 1 =>
    match onGrid? mantissa exponent e with
    | some r => r
    | none => firstGrid mantissa exponent (e - 1) n

/-- The number of digits before the point of a positive fraction, negative for zeros behind it. -/
def magnitude (value : Fraction) : Int :=
  let guess : Int := (Nat.toDigits 10 value.num).length - (Nat.toDigits 10 value.den).length
  if value.lt (Fraction.ofDecimal 1 guess) then guess else guess + 1

/-- The digits of a number without trailing zeros, and how many zeros were dropped. -/
def dropZeros (digits : List Char) : List Char × Nat :=
  let zeros := (digits.reverse.takeWhile (· == '0')).length
  (digits.take (digits.length - zeros), zeros)

/-- The significant digits of a positive number and the place of the point behind the first of
them: with digits `d₀ d₁ …` and exponent `e` the number is shown as `d₀.d₁… · 10 ^ e`. -/
def shortest (mantissa : Nat) (exponent : Int) : List Char × Int :=
  -- Seventeen digits always suffice.
  let places := magnitude (Fraction.ofBinary mantissa exponent)
  let (n, e) := firstGrid mantissa exponent (places - 1) 17
  let (digits, zeros) := dropZeros (Nat.toDigits 10 n)
  (digits, e + zeros + digits.length - 1)

/-- Digits and a decimal exponent in positional form. -/
def positional (digits : List Char) (e : Int) : List Char :=
  if e < 0 then '0' :: '.' :: List.replicate (-e - 1).toNat '0' ++ digits
  else
    let whole := digits.take (e.toNat + 1)
    let zeros := List.replicate (e.toNat + 1 - digits.length) '0'
    let fraction := digits.drop (e.toNat + 1)
    whole ++ zeros ++ '.' :: (if fraction.isEmpty then ['0'] else fraction)

/-- Digits and a decimal exponent in scientific form. -/
def scientific (digits : List Char) (e : Int) : List Char :=
  let mantissa :=
    match digits with
    | d :: [] => [d]
    | d :: ds => d :: '.' :: ds
    | [] => []
  let power := Nat.toDigits 10 e.natAbs
  mantissa ++ 'e' :: (if e < 0 then '-' else '+') ::
    (List.replicate (2 - power.length) '0' ++ power)

/-- The text of a floating-point number. -/
def Binary64.text : Binary64 → String
  | finite negative 0 _ => if negative then "-0.0" else "0.0"
  | finite negative mantissa exponent =>
    let (digits, e) := shortest mantissa exponent
    let body := if -4 ≤ e ∧ e < 16 then positional digits e else scientific digits e
    String.ofList (if negative then '-' :: body else body)
  | infinite negative => if negative then "-inf" else "inf"
  | nan => "nan"

end Tabletop.Number
