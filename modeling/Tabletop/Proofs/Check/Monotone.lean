import Tabletop.Check.Level

/-!
# Better rolls and higher references

The level of a check is the first of a list of conditions that holds, the critical success and the
fumble before the bands.  The conditions for a success stay true when the roll goes down or the
reference goes up, and the condition for a fumble stays true when the roll goes up or the reference
goes down.  So the level moves in one direction only, although the house rules change their
conditions at a reference of fifty or move them with the reference.

## Main results

* `HouseRule.isCritical_of_better`, `HouseRule.isFumble_of_worse` — what the house rules say of
  two rolls of a hundred-sided die, one of them at least as good as the other.
* `classify_le_classify` — the level of the better one is no worse.
* `classify_monotone` — **a lower roll is never worse, a higher reference is never worse.**
-/

namespace Tabletop.Check

/-! ### The house rules -/

section Better

variable {a b r r' : Int}

/-- A critical success is one with a lower roll and a higher reference too. -/
theorem HouseRule.isCritical_of_better (rule : HouseRule) (ha : 1 ≤ a) (hab : a ≤ b)
    (hr : r ≤ r') (h : rule.isCritical b r = true) : rule.isCritical a r' = true := by
  cases rule with
  | rule0 =>
    simp only [isCritical, beq_iff_eq] at h ⊢
    omega
  | rule1 =>
    -- Only here the condition is another one from fifty on: a one is at most five.
    simp only [isCritical] at h ⊢
    split at h <;> split <;> simp only [beq_iff_eq, decide_eq_true_eq] at h ⊢ <;> omega
  | rule2 =>
    simp only [isCritical, Bool.and_eq_true, decide_eq_true_eq] at h ⊢
    omega
  | rule3 =>
    simp only [isCritical, decide_eq_true_eq] at h ⊢
    omega
  | rule4 =>
    simp only [isCritical, Bool.and_eq_true, decide_eq_true_eq] at h ⊢
    omega
  | rule5 =>
    simp only [isCritical, Bool.and_eq_true, decide_eq_true_eq] at h ⊢
    omega

/-- A fumble is one with a higher roll and a lower reference too. -/
theorem HouseRule.isFumble_of_worse (rule : HouseRule) (hab : a ≤ b) (hb : b ≤ 100)
    (hr : r ≤ r') (h : rule.isFumble a r' = true) : rule.isFumble b r = true := by
  cases rule with
  | rule0 =>
    simp only [isFumble, Bool.or_eq_true, Bool.and_eq_true, beq_iff_eq, decide_eq_true_eq] at h ⊢
    omega
  | rule1 =>
    simp only [isFumble, Bool.or_eq_true, Bool.and_eq_true, beq_iff_eq, decide_eq_true_eq] at h ⊢
    omega
  | rule2 =>
    simp only [isFumble, Bool.or_eq_true, Bool.and_eq_true, beq_iff_eq, decide_eq_true_eq] at h ⊢
    omega
  | rule3 =>
    simp only [isFumble, decide_eq_true_eq] at h ⊢
    omega
  | rule4 =>
    simp only [isFumble, Bool.or_eq_true, Bool.and_eq_true, beq_iff_eq, decide_eq_true_eq] at h ⊢
    omega
  | rule5 =>
    -- Below fifty the fumbles begin earlier, at 96 and not at 99.
    simp only [isFumble] at h ⊢
    split at h <;> split <;> simp only [decide_eq_true_eq] at h ⊢ <;> omega

/-! ### The levels -/

/-- No level is worse than a fumble. -/
theorem Level.criticalFail_le (l : Level) : .criticalFail ≤ l := Nat.zero_le l.rank

/-- No level is better than a critical success. -/
theorem Level.le_criticalSuccess (l : Level) : l ≤ .criticalSuccess := by
  cases l <;> decide

/-- A lower roll against a higher reference has no worse a level. -/
theorem classify_le_classify (rule : HouseRule) (ha : 1 ≤ a) (hab : a ≤ b) (hb : b ≤ 100)
    (hr : r ≤ r') : classify b r rule ≤ classify a r' rule := by
  have hcritical := rule.isCritical_of_better ha hab hr
  have hfumble := rule.isFumble_of_worse hab hb hr
  have hfifth : b ≤ r / 5 → a ≤ r' / 5 := by omega
  have hhalf : b ≤ r / 2 → a ≤ r' / 2 := by omega
  have hwhole : b ≤ r → a ≤ r' := by omega
  unfold classify
  by_cases hcritical' : rule.isCritical a r' = true
  · rw [if_pos hcritical']
    exact Level.le_criticalSuccess _
  rw [if_neg hcritical', if_neg (fun h => hcritical' (hcritical h))]
  by_cases hfumble' : rule.isFumble b r = true
  · rw [if_pos hfumble']
    exact Level.criticalFail_le _
  rw [if_neg hfumble', if_neg (fun h => hfumble' (hfumble h))]
  -- What is left are the bands, and a band that holds the worse one holds the better one.
  split
  · next h => rw [if_pos (hfifth h)]; decide
  split
  · next h =>
    rw [if_pos (hhalf h)]
    split <;> decide
  split
  · next h =>
    rw [if_pos (hwhole h)]
    repeat' split
    all_goals decide
  · repeat' split
    all_goals decide

/-- **A lower roll is never worse, and a higher reference is never worse**, whatever the house
rule. -/
theorem classify_monotone (rule : HouseRule) (ha : 1 ≤ a) (hab : a ≤ b) (hb : b ≤ 100)
    (hr : r ≤ r') :
    classify b r rule ≤ classify a r rule ∧ classify a r rule ≤ classify a r' rule := by
  constructor
  · exact classify_le_classify rule ha hab hb (Int.le_refl r)
  · exact classify_le_classify rule ha (Int.le_refl a) (Int.le_trans hab hb) hr

/-- From forty-nine to fifty a house rule says something else of critical successes and of fumbles:
there both ways are strictly better. -/
theorem classify_monotone_fifty :
    (classify 96 49 .rule1 ≤ classify 5 49 .rule1 ∧ classify 5 49 .rule1 ≤ classify 5 50 .rule1) ∧
      classify 96 49 .rule1 = .criticalFail ∧ classify 5 49 .rule1 = .extremeSuccess ∧
      classify 5 50 .rule1 = .criticalSuccess :=
  ⟨classify_monotone .rule1 (by decide) (by decide) (by decide) (by decide),
    by decide, by decide, by decide⟩

end Better

end Tabletop.Check
