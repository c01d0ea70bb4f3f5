/-!
# Levels of success

A check rolls a hundred-sided die against a reference value.  The lower the roll, the better.  A
house rule says which rolls are critical successes and which are fumbles; below them come the
bands of one fifth, one half and the whole of the reference.

## Main definitions

* `Level` — the levels, with their order.
* `HouseRule` — the six house rules, `isCritical` and `isFumble` — what they say.
* `classify` — the level of a roll.
-/

namespace Tabletop.Check

/-- The levels of success, the worst first. -/
inductive Level where
  /-- A fumble. -/
  | criticalFail
  /-- A failure. -/
  | fail
  /-- At most the reference. -/
  | success
  /-- At most one half of the reference. -/
  | hardSuccess
  /-- At most one fifth of the reference. -/
  | extremeSuccess
  /-- A critical success. -/
  | criticalSuccess
  deriving DecidableEq, Repr

/-- The place of a level in the order. -/
def Level.rank : Level → Nat
  | criticalFail => 0
  | fail => 1
  | success => 2
  | hardSuccess => 3
  | extremeSuccess => 4
  | criticalSuccess => 5

instance : LE Level := ⟨fun a b => a.rank ≤ b.rank⟩

instance (a b : Level) : Decidable (a ≤ b) := inferInstanceAs (Decidable (a.rank ≤ b.rank))

/-- Of two levels one is at least as good as the other. -/
theorem Level.le_total (a b : Level) : a ≤ b ∨ b ≤ a := Nat.le_total a.rank b.rank

/-- Whether a level is a success. -/
def Level.isSuccess (l : Level) : Bool := decide (Level.success ≤ l)

/-- The house rules. -/
inductive HouseRule where
  /-- A one is critical; below fifty a roll above 95 is a fumble, else only a hundred. -/
  | rule0
  /-- From fifty on five and less are critical; fumbles as before. -/
  | rule1
  /-- Five and less are critical within the reference; from 96 on above it a fumble. -/
  | rule2
  /-- Five and less are critical, 96 and more are fumbles. -/
  | rule3
  /-- Five and less are critical within a tenth; below fifty a tenth also moves the fumbles. -/
  | rule4
  /-- Two and less are critical below a fifth; fumbles from 96, or from 99 if fifty or more. -/
  | rule5
  deriving DecidableEq, Repr

/-- The house rule with a number. -/
def HouseRule.ofNat? : Nat → Option HouseRule
  | 0 => some rule0
  | 1 => some rule1
  | 2 => some rule2
  | 3 => some rule3
  | 4 => some rule4
  | 5 => some rule5
  | _ => none

/-- The number of a house rule. -/
def HouseRule.number : HouseRule → Nat
  | rule0 => 0
  | rule1 => 1
  | rule2 => 2
  | rule3 => 3
  | rule4 => 4
  | rule5 => 5

/-- The house rule with a number, if the number is one of a house rule. -/
def HouseRule.ofInt? (n : Int) : Option HouseRule :=
  if 0 ≤ n then ofNat? n.toNat else none

/-- A house rule is found by its number. -/
@[simp] theorem HouseRule.ofNat?_number (r : HouseRule) : ofNat? r.number = some r := by
  cases r <;> rfl

/-- Whether a roll is a critical success. -/
def HouseRule.isCritical (rule : HouseRule) (roll reference : Int) : Bool :=
  match rule with
  | rule0 => roll == 1
  | rule1 => if reference < 50 then roll == 1 else decide (roll ≤ 5)
  | rule2 => decide (roll ≤ 5) && decide (roll ≤ reference)
  | rule3 => decide (roll ≤ 5)
  | rule4 => decide (roll ≤ 5) && decide (roll ≤ reference / 10)
  | rule5 => decide (roll ≤ 2) && decide (roll < reference / 5)

/-- Whether a roll is a fumble, unless it is a critical success. -/
def HouseRule.isFumble (rule : HouseRule) (roll reference : Int) : Bool :=
  match rule with
  | rule0 => roll == 100 || (decide (reference < 50) && decide (95 < roll))
  | rule1 => roll == 100 || (decide (reference < 50) && decide (95 < roll))
  | rule2 => roll == 100 || (decide (96 ≤ roll) && decide (reference < roll))
  | rule3 => decide (96 ≤ roll)
  | rule4 => roll == 100 || (decide (reference < 50) && decide (96 + reference / 10 ≤ roll))
  | rule5 => if 50 ≤ reference then decide (99 ≤ roll) else decide (96 ≤ roll)

/-- The level of a roll against a reference; divisions go to the floor. -/
def classify (roll reference : Int) (rule : HouseRule) : Level :=
  if rule.isCritical roll reference then .criticalSuccess
  else if rule.isFumble roll reference then .criticalFail
  else if roll ≤ reference / 5 then .extremeSuccess
  else if roll ≤ reference / 2 then .hardSuccess
  else if roll ≤ reference then .success
  else .fail

end Tabletop.Check
