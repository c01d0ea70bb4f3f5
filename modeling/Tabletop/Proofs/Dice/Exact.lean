import Tabletop.Proofs.Dice.Value
import Tabletop.Proofs.Number.Quotient

/-!
# Evaluation is exact

Evaluation computes with integers, and a quotient is meant to be the exact one with its fraction
dropped.  A machine that divides integers gives the binary number nearest to the quotient instead,
and drops the fraction of that.  There is no difference, because no operand is so large that it
would show: whatever is evaluated, the values of all parts of an expression stay below the bound of
sums, and this bound is far below the numbers that have a binary number each.

## Main results

* `fits_of_tokens` — the tokens of a text have short numerals.
* `Tree.eval_quotient_eq_ok` — what a quotient is evaluated to.
* `evaluation_exact` — **all values are small, and small numbers are divided exactly.**
-/

namespace Tabletop.Dice

open Number

/-- **The tokens of a text have numerals of at most nine digits**: a text with a longer one has no
tokens. -/
theorem fits_of_tokens {text : String} {ts : List Token} (h : tokens text = .ok ts) :
    ts.all Token.fits = true :=
  (spells_of_tokens h).2.1

/-- No die shows more than it has faces, when dice are rolled and when the largest total is
wanted. -/
theorem isFair_of_eq {fall : Fall} (h : fall = rolled ∨ fall = highest) : fall.IsFair := by
  rcases h with rfl | rfl
  · exact isFair_rolled
  · exact isFair_highest

/-- What a sum may be needs one binary digit less than a mantissa has. -/
theorem lt_of_le_maxTotal {n : Nat} (h : n ≤ maxTotal) :
    n < 2 ^ (Binary64.precision - 1) ∧ n < 2 ^ Binary64.precision :=
  ⟨Nat.lt_of_le_of_lt h (by decide), Nat.lt_of_le_of_lt h (by decide)⟩

/-- **Two numbers that a sum may have are divided exactly**, although their quotient is rounded. -/
theorem truncate?_ofQuotient_of_le {a b : Int} (ha : a.natAbs ≤ maxTotal)
    (hb : b.natAbs ≤ maxTotal) (hb0 : b ≠ 0) :
    (Binary64.ofQuotient a b).truncate? = some (a.tdiv b) :=
  Binary64.truncate?_ofQuotient (lt_of_le_maxTotal ha).1 (lt_of_le_maxTotal hb).2 hb0

/-- A quotient is evaluated to that of its operands, which are no larger than a sum may be and the
second of which is not zero. -/
theorem Tree.eval_quotient_eq_ok {fall : Fall} (hfall : fall.IsFair) {usual : Int} {l r : Tree}
    (h : (product l .divide r).Fits) {sense : Sense} {s s' : Supply} {out : Reading}
    (heval : (product l .divide r).eval fall usual sense s = (.ok out, s')) :
    ∃ a s₁ b, l.eval fall usual sense s = (.ok a, s₁) ∧
      r.eval fall usual (sense.under .divide) s₁ = (.ok b, s') ∧
      a.total.natAbs ≤ maxTotal ∧ b.total.natAbs ≤ maxTotal ∧ b.total ≠ 0 ∧
      out.total = a.total.tdiv b.total := by
  have hl := h.of_mem_parts (List.mem_cons_of_mem _ (List.mem_append_left _ l.mem_parts_self))
  have hr := h.of_mem_parts (List.mem_cons_of_mem _ (List.mem_append_right _ r.mem_parts_self))
  rw [eval_product_eq_joined] at heval
  obtain ⟨a, s₁, b, hevall, hevalr, hjoin, -⟩ := joined_eq_ok heval
  obtain ⟨hb0, htotal⟩ := Scale.join_eq_ok_iff.1 hjoin
  exact ⟨a, s₁, b, hevall, hevalr, natAbs_le_of_eval hfall hl hevall,
    natAbs_le_of_eval hfall hr hevalr, hb0, htotal⟩

/-- **All values are small, and small numbers are divided exactly.**  The tokens have numerals of at
most nine digits, as all tokens of a text have by `fits_of_tokens`; the dice are rolled, or fall so
that the total is largest; and the usual number of faces is any.  Then every part of the expression
that has a value has one that a sum may have.  So both operands of every quotient are such numbers,
and the divisor is not zero.  And for any two such numbers, the nearest binary number to their
quotient, with its fraction dropped, is the exact quotient with its fraction dropped, which is the
value of the quotient in the expression. -/
theorem evaluation_exact {ts : List Token} (hts : ts.all Token.fits = true) {fall : Fall}
    (hfall : fall = rolled ∨ fall = highest) (usual : Int) :
    (∀ t ∈ (parse ts).parts, ∀ sense s out s', t.eval fall usual sense s = (.ok out, s') →
        out.total.natAbs ≤ maxTotal) ∧
      (∀ l r, .product l .divide r ∈ (parse ts).parts → ∀ sense s out s',
        (Tree.product l .divide r).eval fall usual sense s = (.ok out, s') →
          ∃ a s₁ b, l.eval fall usual sense s = (.ok a, s₁) ∧
            r.eval fall usual (sense.under .divide) s₁ = (.ok b, s') ∧
            a.total.natAbs ≤ maxTotal ∧ b.total.natAbs ≤ maxTotal ∧ b.total ≠ 0 ∧
            (Binary64.ofQuotient a.total b.total).truncate? = some out.total) ∧
      ∀ a b : Int, a.natAbs ≤ maxTotal → b.natAbs ≤ maxTotal → b ≠ 0 →
        (∀ x : ℚ, IsNearest x (a / b : ℚ) → truncate x = truncate (a / b : ℚ)) ∧
          (∃ x, (Binary64.ofQuotient a b).toRat? = some x ∧ IsNearest x (a / b : ℚ)) ∧
          (Binary64.ofQuotient a b).truncate? = some (truncate (a / b : ℚ)) ∧
          Scale.divide.join a b = .ok (truncate (a / b : ℚ)) := by
  have hfair := isFair_of_eq hfall
  have hfits := fits_parse hts
  refine ⟨?_, ?_, ?_⟩
  · intro t ht sense s out s' heval
    exact Tree.natAbs_le_of_eval hfair (hfits.of_mem_parts ht) heval
  · intro l r hmem sense s out s' heval
    obtain ⟨a, s₁, b, hl, hr, ha, hb, hb0, htotal⟩ :=
      Tree.eval_quotient_eq_ok hfair (hfits.of_mem_parts hmem) heval
    exact ⟨a, s₁, b, hl, hr, ha, hb, hb0, htotal ▸ truncate?_ofQuotient_of_le ha hb hb0⟩
  · intro a b ha hb hb0
    obtain ⟨hahalf, haprecision⟩ := lt_of_le_maxTotal ha
    have hbprecision := (lt_of_le_maxTotal hb).2
    refine ⟨fun x hx => truncate_of_isNearest hahalf hb0 hx,
      Binary64.exists_isNearest_ofQuotient haprecision hbprecision hb0, ?_, ?_⟩
    · rw [truncate_intCast_div]
      exact truncate?_ofQuotient_of_le ha hb hb0
    · rw [truncate_intCast_div]
      exact Scale.join_eq_ok_iff.2 ⟨hb0, rfl⟩

/-- Seven is divided by a two that a die shows behind a minus sign; and two numbers are divided that
are as large as may be and nearly equal. -/
theorem evaluation_exact_negative_divisor :
    let ts : List Token := [.number ['7'], .scale .divide, .sign .minus, .dice [] 'd' ['4']]
    tokens "7/-d4" = .ok ts ∧ ts.all Token.fits = true ∧
      ∃ out s', (parse ts).eval rolled 20 .same (Supply.ofList [2]) = (.ok out, s') ∧
        out.total = -3 ∧ out.total.natAbs ≤ maxTotal ∧
        (∃ a s₁ b,
          (Tree.signed .minus (.dice none (some 4))).eval rolled 20 .opposite s₁ = (.ok b, s') ∧
            b.total ≠ 0 ∧ (Binary64.ofQuotient a b.total).truncate? = some (-3)) ∧
        (Binary64.ofQuotient 999999999999999 1000000000000000).truncate? = some 0 := by
  intro ts
  have htokens : tokens "7/-d4" = .ok ts := by decide
  have hfits := fits_of_tokens htokens
  have heval : (parse ts).eval rolled 20 .same (Supply.ofList [2]) =
      (.ok ⟨-3, .product (.number ['7']) .divide (.signed .minus (.number ['2']))⟩,
        { Supply.ofList [2] with drawn := 1 }) := rfl
  obtain ⟨hbound, hquotient, hexact⟩ := evaluation_exact hfits (Or.inl rfl) 20
  refine ⟨htokens, hfits, _, _, heval, rfl, hbound _ (Tree.mem_parts_self _) _ _ _ _ heval, ?_, ?_⟩
  · obtain ⟨a, s₁, b, -, hdivisor, -, -, hb0, htruncate⟩ :=
      hquotient (.number ['7']) (.signed .minus (.dice none (some 4))) (Tree.mem_parts_self _)
        _ _ _ _ heval
    exact ⟨a.total, s₁, b, hdivisor, hb0, htruncate⟩
  · have h := (hexact 999999999999999 1000000000000000 (by decide) (by decide) (by decide)).2.2.1
    rwa [truncate_intCast_div] at h

end Tabletop.Dice
