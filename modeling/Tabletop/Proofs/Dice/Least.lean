import Tabletop.Proofs.Dice.Monotone

/-!
# The smallest total of an expression

The search for the largest total knows places where a smaller number is wanted.  If a smaller one is
wanted at the whole expression, the same search finds the smallest total: every die shows a one, or
all its faces where it is subtracted.  In an expression without products and quotients no dice give
less.

## Main definitions

* `smallest?` — the total with these faces.

## Main results

* `isLeast_totals` — **the total that was found is the smallest**, in an expression without scales.
* `smallest?_of_mem_totals` — it is found if the expression can be rolled, unless it is too large.
* `totals_nonneg_iff` — so it tells whether an expression can be rolled to a negative total.
* `totals_nonneg_of_unsigned` — an expression without a minus cannot.
-/

namespace Tabletop.Dice

/-- The total of an expression whose dice show a one, and all their faces where they are
subtracted. -/
def smallest? (expression : String) (usual : Int) : Except Fault Int :=
  match parseText expression with
  | .error f => .error f
  | .ok t => (t.eval highest usual .opposite ⟨fun _ => 1, 0⟩).1.map Reading.total

/-- **Sums are refused only for their size**: a tree that only adds and subtracts, and that some
dice keep in bounds, comes upon no other fault, however its dice fall. -/
theorem Tree.eq_totalTooLarge_of_eval {fall : Fall} {usual : Int} {numbers : Nat → Int} {t : Tree}
    {sense : Sense} {s s' : Supply} {first : Nat} {f : Fault} (hadditive : t.isAdditive = true)
    (hbounds : t.InBounds usual numbers first)
    (h : t.eval fall usual sense s = (.error f, s')) : f = .totalTooLarge := by
  induction t generalizing sense s s' first with
  | number ds => cases h
  | dice count faces =>
    -- The number of dice and that of their faces do not depend on what the dice show.
    rw [eval_dice, diceTerm_eq_ok_iff.2 ⟨hbounds, rfl, rfl⟩] at h
    cases h
  | signed sign t ih => exact ih hadditive hbounds (eval_signed_eq_error h)
  | group t ih => exact ih hadditive hbounds (eval_group_eq_error h)
  | sum l sign r ihl ihr =>
    rw [isAdditive, Bool.and_eq_true] at hadditive
    obtain ⟨hl, hr, -⟩ := hbounds
    rw [eval_sum_eq_joined] at h
    rcases joined_eq_error h with hevall | ⟨a, s₁, -, hevalr | ⟨b, -, hjoin⟩⟩
    · exact ihl hadditive.1 hl hevall
    · exact ihr hadditive.2 hr hevalr
    · exact (bounded_eq_error hjoin).2
  | product l scale r => cases hadditive
  | fault e | stopped t e => cases hbounds

variable {expression : String} {usual m : Int}

theorem eval_of_smallest? (h : smallest? expression usual = .ok m) :
    ∃ ts out s', tokens expression = .ok ts ∧
      (parse ts).eval highest usual .opposite ⟨fun _ => 1, 0⟩ = (.ok out, s') ∧ out.total = m := by
  unfold smallest? parseText at h
  rcases htokens : tokens expression with f | ts
  · rw [htokens] at h
    cases h
  rw [htokens] at h
  rcases heval : (parse ts).eval highest usual .opposite ⟨fun _ => 1, 0⟩ with ⟨f | out, s'⟩
  · simp only [Except.map, heval] at h
    cases h
  · simp only [Except.map, heval] at h
    exact ⟨ts, out, s', rfl, heval, Except.ok.inj h⟩

/-- **The total that was found is the smallest**, if the expression has no products and no
quotients. -/
theorem isLeast_totals (h : smallest? expression usual = .ok m)
    (hscale : ∀ s : Scale, s.symbol ∉ expression.toList) :
    IsLeast (totals expression usual) m := by
  obtain ⟨ts, out, s', htokens, heval, rfl⟩ := eval_of_smallest? h
  constructor
  · obtain ⟨numbers, hbounds, hvalue⟩ := Tree.exists_value_of_eval heval
    obtain ⟨detail, hroll⟩ := roll_of_inBounds expression usual ⟨numbers, 0⟩ htokens hbounds
    exact ⟨_, _, _, hroll, hvalue⟩
  · rintro n ⟨supply, r, supply', hroll, rfl⟩
    obtain ⟨ts', t, hevaluates, htotal⟩ := Evaluates.of_roll hroll
    obtain rfl := Except.ok.inj (hevaluates.tokens_eq.symm.trans htokens)
    obtain rfl := parse_of_derives hevaluates.derives hevaluates.nesting
    have hadditive := isAdditive_parse htokens hscale hevaluates.derives.isComplete
    -- At a place where less is wanted, no dice serve better than the extremes.
    have hleast := Tree.le_of_keepsOrder (Tree.keepsOrder_of_isAdditive hadditive) heval
      hevaluates.inBounds
    rw [htotal]
    exact hleast

/-- **The smallest total is found if the expression can be rolled at all**, unless one of its sums
is too large. -/
theorem smallest?_of_mem_totals (hscale : ∀ s : Scale, s.symbol ∉ expression.toList) {n : Int}
    (hn : n ∈ totals expression usual) :
    (∃ m, smallest? expression usual = .ok m) ∨
      smallest? expression usual = .error .totalTooLarge := by
  obtain ⟨supply, r, supply', hroll, -⟩ := hn
  obtain ⟨ts, t, hevaluates, -⟩ := Evaluates.of_roll hroll
  have htokens := hevaluates.tokens_eq
  obtain rfl := parse_of_derives hevaluates.derives hevaluates.nesting
  have hadditive := isAdditive_parse htokens hscale hevaluates.derives.isComplete
  simp only [smallest?, parseText, htokens, Except.map]
  rcases heval : (parse ts).eval highest usual .opposite ⟨fun _ => 1, 0⟩ with ⟨f | out, s'⟩
  · rw [Tree.eq_totalTooLarge_of_eval hadditive hevaluates.inBounds heval]
    exact Or.inr rfl
  · exact Or.inl ⟨out.total, rfl⟩

/-- An expression without scales can be rolled to a negative total exactly if the smallest one is
negative. -/
theorem totals_nonneg_iff (h : smallest? expression usual = .ok m)
    (hscale : ∀ s : Scale, s.symbol ∉ expression.toList) :
    (∀ n ∈ totals expression usual, 0 ≤ n) ↔ 0 ≤ m := by
  have hleast := isLeast_totals h hscale
  constructor
  · intro hnonneg
    exact hnonneg m hleast.1
  · intro hm n hn
    exact Int.le_trans hm (hleast.2 hn)

/-- An expression without a minus cannot be rolled to a negative total. -/
theorem totals_nonneg_of_unsigned (hminus : '-' ∉ expression.toList) :
    ∀ n ∈ totals expression usual, 0 ≤ n := by
  rintro n ⟨supply, r, supply', hroll, rfl⟩
  exact roll_total_nonneg hminus hroll

end Tabletop.Dice
