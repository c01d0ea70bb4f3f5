import Tabletop.Error

/-!
# Dice pools

A pool starts with a number of ten-sided dice.  A die that reaches the threshold explodes, that is,
it adds one more die.  A die that shows eight or more is a success.

## Main definitions

* `Spec` — a number of dice and a threshold, both within their bounds.
* `Spec.make` — the pool with two numbers, if they are within bounds.
* `Mark`, `markOf` — how a single die is shown.
* `Outcome` — a pool that has been rolled.
-/

namespace Tabletop.Pool

/-- A pool: how many dice it starts with and from which number on they explode. -/
structure Spec where
  /-- The number of dice at the start. -/
  count : Nat
  /-- The number from which on a die explodes. -/
  threshold : Nat
  /-- The number of dice is within its bounds. -/
  count_bounds : minPoolDice ≤ count ∧ count ≤ maxPoolDice
  /-- The threshold is within its bounds. -/
  threshold_bounds : minThreshold ≤ threshold ∧ threshold ≤ maxThreshold

/-- The number from which on a die is a success; it is also the usual threshold. -/
def successFrom : Nat := 8

/-- The number of faces of the dice in a pool. -/
def poolFaces : Nat := 10

/-- The pool with the given numbers, if both are within bounds. -/
def Spec.make (count threshold : Int) : Except Error Spec :=
  if hc : minPoolDice ≤ count.toNat ∧ count.toNat ≤ maxPoolDice then
    if ht : minThreshold ≤ threshold.toNat ∧ threshold.toNat ≤ maxThreshold then
      .ok ⟨count.toNat, threshold.toNat, hc, ht⟩
    else .error (.range (.poolThreshold threshold))
  else .error (.range (.poolCount count))

/-- A pool is made of two numbers exactly if both are within bounds. -/
theorem Spec.make_eq_ok_iff {count threshold : Int} {spec : Spec} :
    Spec.make count threshold = .ok spec ↔
      (spec.count : Int) = count ∧ (spec.threshold : Int) = threshold := by
  obtain ⟨n, t, hn, ht⟩ := spec
  have hmin : minPoolDice = 1 := rfl
  have hleast : minThreshold = 2 := rfl
  constructor
  · intro h
    unfold Spec.make at h
    split at h
    · split at h
      · simp only [Except.ok.injEq, Spec.mk.injEq] at h
        show (n : Int) = count ∧ (t : Int) = threshold
        omega
      · cases h
    · cases h
  · rintro ⟨rfl, rfl⟩
    unfold Spec.make
    simp only [Int.toNat_natCast, hn, ht]
    simp

/-- A pool in the short form, as in `10a8`. -/
def Spec.text (spec : Spec) : String := s!"{spec.count}a{spec.threshold}"

/-- How a single die is shown. -/
inductive Mark where
  /-- It explodes. -/
  | explode
  /-- It is a success. -/
  | success
  /-- It shows a one. -/
  | botch
  /-- None of these. -/
  | plain
  deriving DecidableEq, Repr

/-- How a die is shown that fell on a number. -/
def markOf (threshold : Nat) (value : Int) : Mark :=
  if (threshold : Int) ≤ value then .explode
  else if (successFrom : Int) ≤ value then .success
  else if value = 1 then .botch
  else .plain

/-- A pool that has been rolled. -/
structure Outcome where
  /-- The pool. -/
  spec : Spec
  /-- What the dice showed, in order; dice that were added come last. -/
  draws : List Int
  /-- The number of successes. -/
  successes : Nat

/-- The number of dice that were added. -/
def Outcome.exploded (o : Outcome) : Int := (o.draws.length : Int) - o.spec.count

/-- How each die is shown. -/
def Outcome.marks (o : Outcome) : List Mark := o.draws.map (markOf o.spec.threshold)

end Tabletop.Pool
