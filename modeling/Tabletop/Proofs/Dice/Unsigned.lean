import Tabletop.Proofs.Dice.Roll

/-!
# Expressions without a minus

Numbers and dice are never negative, and sums, products and quotients of such numbers are not
negative either.  So only a minus in the text of an expression can bring its total below zero.

## Main results

* `Derives.value_nonneg` — a tree without a minus has no negative value.
* `Source.total_nonneg` — **an expression without a minus is not rolled to a negative total.**
-/

namespace Tabletop.Dice

/-- **A tree without a minus has no negative value.** -/
theorem Derives.value_nonneg {layer : Layer} {ts : List Token} {t : Tree} (h : Derives layer ts t)
    (hminus : .sign .minus ∉ ts) (usual : Int) (numbers : Nat → Int) (first : Nat) :
    0 ≤ t.value usual numbers first := by
  induction h generalizing first with
  | number ds => exact Int.natCast_nonneg _
  | dice count letter faces => exact Int.natCast_nonneg _
  | signed s h ih =>
    rw [List.mem_cons, not_or] at hminus
    cases s with
    | plus => exact ih hminus.2 first
    | minus => exact absurd rfl hminus.1
  | group h ih =>
    apply ih
    intro hmem
    exact hminus (List.mem_cons_of_mem _ (List.mem_append_left _ hmem))
  | factor h ih => exact ih hminus first
  | @product ls rs l r s hl hr ihl ihr =>
    rw [List.mem_append, List.mem_cons, not_or, not_or] at hminus
    have hleft := ihl hminus.1 first
    have hright := ihr hminus.2.2 (first + l.diceCount)
    cases s with
    | times => exact Int.mul_nonneg hleft hright
    | divide => exact Int.tdiv_nonneg hleft hright
  | term h ih => exact ih hminus first
  | @sum ls rs l r s hl hr ihl ihr =>
    rw [List.mem_append, List.mem_cons, not_or, not_or] at hminus
    have hleft := ihl hminus.1 first
    have hright := ihr hminus.2.2 (first + l.diceCount)
    cases s with
    | plus => exact Int.add_nonneg hleft hright
    | minus => exact absurd rfl hminus.2.1

/-- An expression without a minus is not evaluated to a negative total. -/
theorem roll_total_nonneg {expression : String} {usual : Int} {supply supply' : Supply} {r : Roll}
    (hminus : '-' ∉ expression.toList) (h : roll expression usual supply = (.ok r, supply')) :
    0 ≤ r.total := by
  obtain ⟨ts, t, hevaluates, htotal⟩ := Evaluates.of_roll h
  rw [htotal]
  apply hevaluates.derives.value_nonneg
  intro hmem
  exact hminus (hevaluates.spells.mem_of_token hmem (List.mem_singleton_self _))

/-- The source evaluates expressions or is out of order. -/
def Source.IsUsual (source : Source) : Prop := source = .evaluator ∨ source = .offline

/-- **An expression without a minus is not rolled to a negative total.** -/
theorem Source.total_nonneg {source : Source} (hsource : source.IsUsual) {expression : String}
    {usual : Int} {supply supply' : Supply} {r : Roll} (hminus : '-' ∉ expression.toList)
    (h : source.roll expression usual supply = (.ok r, supply')) : 0 ≤ r.total := by
  rcases hsource with rfl | rfl
  · exact roll_total_nonneg hminus h
  · cases h

end Tabletop.Dice
