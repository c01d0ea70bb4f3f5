import Tabletop.Proofs.Dice.Extremes
import Tabletop.Proofs.Dice.Unsigned

/-!
# When the total that is found is the largest

The search for the largest total turns its sense at a minus and at a divisor, and it takes no notice
of whether a factor is negative.  Yet a negative factor turns the order of numbers, and so does a
negative dividend the order of its divisors.  So the search may pick the wrong faces: for `-2*1d6`
it finds -12, which is the smallest total.

Some dice always give the total that is found.  No dice give more if what dice are multiplied with
or divided by is never negative, nor what is divided by dice, and if such a divisor keeps its sign.
In particular this is so for expressions without products and quotients, and for those without a
minus.

## Main definitions

* `Tree.NeverNegative` — a tree has no negative value.
* `Tree.KeepsOrder` — the products and quotients of a tree keep the order of numbers.

## Main results

* `Scale.le_apply_left`, `Scale.le_apply_right` — which operands keep the order of numbers.
* `Tree.le_of_keepsOrder` — **no dice serve a place better than the extremes**, in a tree that keeps
  the order.
* `isGreatest_of_keepsOrder` — the same for the text of an expression.
* `isGreatest_totals`, `isGreatest_of_unsigned` — expressions without scales, and without a minus.
* `largest?_attained` — **the total that is found can be rolled, and it is the largest** if the
  order is kept.
* `largest?_negative_factor` — an expression for which it is not the largest.
-/

namespace Tabletop.Dice

/-! ### Quotients -/

/-- A larger dividend gives a larger quotient, if the divisor is positive. -/
theorem tdiv_le_tdiv_of_le {x a y : Int} (h : x ≤ a) (hy : 0 < y) : x.tdiv y ≤ a.tdiv y := by
  have hnonneg : ∀ {m n : Int}, 0 ≤ m → m ≤ n → m.tdiv y ≤ n.tdiv y := by
    intro m n hm hmn
    rw [Int.tdiv_eq_ediv_of_nonneg hm, Int.tdiv_eq_ediv_of_nonneg (Int.le_trans hm hmn)]
    exact Int.ediv_le_ediv hy hmn
  rcases Int.lt_or_le x 0 with hx | hx
  · rcases Int.le_total a 0 with ha | ha
    · -- Two negative dividends are turned into their opposites.
      have hturned := hnonneg (m := -a) (n := -x) (by omega) (by omega)
      rw [Int.neg_tdiv, Int.neg_tdiv] at hturned
      omega
    · have hlow : 0 ≤ (-x).tdiv y := Int.tdiv_nonneg (by omega) (Int.le_of_lt hy)
      have hhigh : 0 ≤ a.tdiv y := Int.tdiv_nonneg ha (Int.le_of_lt hy)
      rw [Int.neg_tdiv] at hlow
      omega
  · exact hnonneg hx h

/-- A larger divisor gives a smaller quotient, if the dividend is not negative and the divisors are
positive. -/
theorem tdiv_le_tdiv_of_pos {a b y : Int} (ha : 0 ≤ a) (hb : 0 < b) (h : b ≤ y) :
    a.tdiv y ≤ a.tdiv b := by
  obtain ⟨a, rfl⟩ := Int.eq_ofNat_of_zero_le ha
  obtain ⟨b, rfl⟩ := Int.eq_ofNat_of_zero_le (Int.le_of_lt hb)
  obtain ⟨y, rfl⟩ := Int.eq_ofNat_of_zero_le (Int.le_trans (Int.le_of_lt hb) h)
  rw [← Int.ofNat_tdiv, ← Int.ofNat_tdiv]
  exact Int.ofNat_le.2 (Nat.div_le_div_left (Int.ofNat_le.1 h) (Int.ofNat_lt.1 hb))

/-- The same holds of negative divisors. -/
theorem tdiv_le_tdiv_of_neg {a b y : Int} (ha : 0 ≤ a) (hy : y < 0) (h : b ≤ y) :
    a.tdiv y ≤ a.tdiv b := by
  have hopposite := tdiv_le_tdiv_of_pos ha (b := -y) (y := -b) (by omega) (by omega)
  rw [Int.tdiv_neg, Int.tdiv_neg] at hopposite
  omega

/-! ### Operands that keep the order -/

section Operands

variable {sense : Sense} {scale : Scale} {x y a b : Int}

theorem Sense.Le.refl (sense : Sense) (a : Int) : sense.Le a a := by
  cases sense with
  | same => exact Int.le_refl a
  | opposite => exact Int.le_refl a

theorem Sense.Le.trans (h : sense.Le x y) (h' : sense.Le y a) : sense.Le x a := by
  cases sense with
  | same => exact Int.le_trans h h'
  | opposite => exact Int.le_trans h' h

/-- **A second operand that is not negative** keeps the order of the first ones. -/
theorem Scale.le_apply_left (h : sense.Le x a) (hy : 0 ≤ y) (hallows : scale.Allows x y) :
    sense.Le (scale.apply x y) (scale.apply a y) := by
  cases scale with
  | times =>
    cases sense with
    | same => exact Int.mul_le_mul_of_nonneg_right h hy
    | opposite => exact Int.mul_le_mul_of_nonneg_right h hy
  | divide =>
    have hne : y ≠ 0 := hallows
    have hpos : 0 < y := by omega
    cases sense with
    | same => exact tdiv_le_tdiv_of_le h hpos
    | opposite => exact tdiv_le_tdiv_of_le h hpos

/-- Two numbers have the same sign. -/
def SameSign (y b : Int) : Prop := (0 ≤ y ∧ 0 ≤ b) ∨ (y ≤ 0 ∧ b ≤ 0)

theorem tdiv_le_tdiv_of_sameSign (ha : 0 ≤ a) (hy : y ≠ 0) (hb : b ≠ 0) (hsign : SameSign y b)
    (h : b ≤ y) : a.tdiv y ≤ a.tdiv b := by
  rcases hsign with ⟨-, hpos⟩ | ⟨hneg, -⟩
  · exact tdiv_le_tdiv_of_pos ha (by omega) h
  · exact tdiv_le_tdiv_of_neg ha (by omega) h

/-- **A first operand that is not negative** keeps the order of the second ones: of factors, and,
turned, of divisors of the same sign. -/
theorem Scale.le_apply_right (h : (sense.under scale).Le y b) (ha : 0 ≤ a)
    (hsign : scale = .divide → SameSign y b) (hy : scale.Allows x y) (hb : scale.Allows a b) :
    sense.Le (scale.apply a y) (scale.apply a b) := by
  cases scale with
  | times =>
    cases sense with
    | same => exact Int.mul_le_mul_of_nonneg_left h ha
    | opposite => exact Int.mul_le_mul_of_nonneg_left h ha
  | divide =>
    have hsame := hsign rfl
    cases sense with
    | same => exact tdiv_le_tdiv_of_sameSign ha hy hb hsame h
    | opposite => exact tdiv_le_tdiv_of_sameSign ha hb hy (hsame.imp And.symm And.symm) h

end Operands

/-! ### Trees that keep the order -/

namespace Tree

variable {usual : Int} {numbers : Nat → Int}

/-- The tree has no negative value, whatever its dice show. -/
def NeverNegative (usual : Int) (t : Tree) : Prop :=
  ∀ numbers first, t.InBounds usual numbers first → 0 ≤ t.value usual numbers first

/-- The products and quotients in the tree keep the order of numbers.  What dice are multiplied with
or divided by is never negative; neither is what is divided by dice, and such a divisor never
changes its sign. -/
def KeepsOrder (usual : Int) : Tree → Prop
  | number _ => True
  | dice _ _ => True
  | signed _ t => t.KeepsOrder usual
  | group t => t.KeepsOrder usual
  | sum l _ r => l.KeepsOrder usual ∧ r.KeepsOrder usual
  | product l s r =>
    l.KeepsOrder usual ∧ r.KeepsOrder usual ∧
      (l.diceCount = 0 ∨ r.NeverNegative usual) ∧
      (r.diceCount = 0 ∨ l.NeverNegative usual ∧
        (s = .divide → r.NeverNegative usual ∨ (signed .minus r).NeverNegative usual))
  | fault _ => True
  | stopped t _ => t.KeepsOrder usual

/-- The value of a tree without dice does not depend on what dice show. -/
theorem value_of_diceCount_eq_zero {t : Tree} (h : t.diceCount = 0) (numbers numbers' : Nat → Int)
    (first first' : Nat) : t.value usual numbers first = t.value usual numbers' first' := by
  induction t generalizing first first' with
  | number | fault => rfl
  | dice count faces =>
    rw [diceCount] at h
    rw [value, value, h]
    rfl
  | signed s t ih => rw [value, value, ih h first first']
  | group t ih | stopped t _ ih => exact ih h first first'
  | sum l s r ihl ihr | product l s r ihl ihr =>
    rw [diceCount, Nat.add_eq_zero_iff] at h
    rw [value, value, ihl h.1 first first', ihr h.2 (first + l.diceCount) (first' + l.diceCount)]

/-- **No dice serve a place better than the extremes**, in a tree that keeps the order. -/
theorem le_of_keepsOrder {t : Tree} {sense : Sense} {s s' : Supply} {out : Reading}
    (horder : t.KeepsOrder usual) (h : t.eval highest usual sense s = (.ok out, s')) {first : Nat}
    (hbounds : t.InBounds usual numbers first) :
    sense.Le (t.value usual numbers first) out.total := by
  induction t generalizing sense s s' out first with
  | number ds =>
    cases h
    exact Sense.Le.refl sense _
  | dice count faces =>
    obtain ⟨hdice, htotal⟩ := eval_dice_highest_eq_ok h
    rw [htotal]
    exact Sense.le_sum_pick (by omega) sense numbers first (count.getD 1)
  | signed sign t ih =>
    obtain ⟨a, heval, htotal, -⟩ := eval_signed_eq_ok h
    rw [htotal]
    exact Sense.le_apply (ih horder heval hbounds)
  | group t ih =>
    obtain ⟨a, heval, htotal, -⟩ := eval_group_eq_ok h
    rw [htotal]
    exact ih horder heval hbounds
  | sum l sign r ihl ihr =>
    rw [eval_sum_eq_joined] at h
    obtain ⟨a, s₁, b, hevall, hevalr, hjoin, -⟩ := joined_eq_ok h
    have hl := ihl horder.1 hevall hbounds.1
    -- Behind a minus the right side is wanted small, and its sense is turned.
    have hr := Sense.le_apply (ihr horder.2 hevalr hbounds.2.1)
    rw [(Sign.join_eq_ok_iff.1 hjoin).2]
    exact Sense.le_add hl hr
  | product l scale r ihl ihr =>
    rw [eval_product_eq_joined] at h
    obtain ⟨a, s₁, b, hevall, hevalr, hjoin, -⟩ := joined_eq_ok h
    obtain ⟨horderl, horderr, hleft, hright⟩ := horder
    obtain ⟨hboundsl, hboundsr, hallows⟩ := hbounds
    obtain ⟨hjoined, htotal⟩ := Scale.join_eq_ok_iff.1 hjoin
    obtain ⟨numbersl, hextremel, hvaluel⟩ := exists_value_of_eval hevall
    obtain ⟨numbersr, hextremer, hvaluer⟩ := exists_value_of_eval hevalr
    have hl := ihl horderl hevall hboundsl
    have hr := ihr horderr hevalr hboundsr
    -- The left operand is replaced by its extreme first, and then the right one.
    have hfirst : sense.Le (scale.apply (l.value usual numbers first)
        (r.value usual numbers (first + l.diceCount)))
        (scale.apply a.total (r.value usual numbers (first + l.diceCount))) := by
      rcases hleft with hnone | hnonneg
      · rw [value_of_diceCount_eq_zero hnone numbers numbersl first 0, hvaluel]
        exact Sense.Le.refl sense _
      · exact Scale.le_apply_left hl (hnonneg _ _ hboundsr) hallows
    have hsecond : sense.Le (scale.apply a.total (r.value usual numbers (first + l.diceCount)))
        (scale.apply a.total b.total) := by
      rcases hright with hnone | ⟨hnonneg, hsign⟩
      · rw [value_of_diceCount_eq_zero hnone numbers numbersr (first + l.diceCount) 0, hvaluer]
        exact Sense.Le.refl sense _
      · have ha : 0 ≤ a.total := hvaluel ▸ hnonneg _ _ hextremel
        refine Scale.le_apply_right hr ha ?_ hallows hjoined
        intro hdivide
        rcases hsign hdivide with hpos | hneg
        · exact Or.inl ⟨hpos _ _ hboundsr, hvaluer ▸ hpos _ _ hextremer⟩
        · have hturned := hneg _ _ hboundsr
          have hturned' := hneg _ _ hextremer
          rw [value, Sign.apply] at hturned hturned'
          exact Or.inr ⟨by omega, by omega⟩
    rw [htotal]
    exact hfirst.trans hsecond
  | fault f => cases h
  | stopped t f => exact absurd h eval_stopped_ne_ok

/-- A tree that only adds and subtracts keeps the order. -/
theorem keepsOrder_of_isAdditive {t : Tree} (h : t.isAdditive = true) : t.KeepsOrder usual := by
  induction t with
  | number | dice | fault => trivial
  | signed s t ih | group t ih | stopped t _ ih => exact ih h
  | sum l s r ihl ihr =>
    rw [isAdditive, Bool.and_eq_true] at h
    exact ⟨ihl h.1, ihr h.2⟩
  | product l s r => cases h

end Tree

/-- A tree without a minus keeps the order. -/
theorem Derives.keepsOrder {layer : Layer} {ts : List Token} {t : Tree} (h : Derives layer ts t)
    (hminus : .sign .minus ∉ ts) (usual : Int) : t.KeepsOrder usual := by
  induction h with
  | number | dice => trivial
  | signed s h ih => exact ih fun hmem => hminus (List.mem_cons_of_mem _ hmem)
  | group h ih =>
    apply ih
    intro hmem
    exact hminus (List.mem_cons_of_mem _ (List.mem_append_left _ hmem))
  | factor h ih | term h ih => exact ih hminus
  | product s hl hr ihl ihr =>
    rw [List.mem_append, List.mem_cons, not_or, not_or] at hminus
    have hleft : Tree.NeverNegative usual _ :=
      fun numbers first _ => hl.value_nonneg hminus.1 usual numbers first
    have hright : Tree.NeverNegative usual _ :=
      fun numbers first _ => hr.value_nonneg hminus.2.2 usual numbers first
    exact ⟨ihl hminus.1, ihr hminus.2.2, Or.inr hright, Or.inr ⟨hleft, fun _ => Or.inl hright⟩⟩
  | sum s hl hr ihl ihr =>
    rw [List.mem_append, List.mem_cons, not_or, not_or] at hminus
    exact ⟨ihl hminus.1, ihr hminus.2.2⟩

/-! ### Expressions -/

section Largest

variable {expression : String} {usual m : Int}

/-- **The total that was found is the largest**, if the tree of the expression keeps the order. -/
theorem isGreatest_of_keepsOrder (h : largest? expression usual = .ok m)
    (horder : ∀ ts, tokens expression = .ok ts → (parse ts).isComplete = true →
      (parse ts).KeepsOrder usual) :
    IsGreatest (totals expression usual) m := by
  refine ⟨mem_totals h, ?_⟩
  rintro n ⟨supply, r, supply', hroll, rfl⟩
  obtain ⟨ts, out, s', htokens, heval, rfl⟩ := eval_of_largest? h
  obtain ⟨ts', t, hevaluates, htotal⟩ := Evaluates.of_roll hroll
  obtain rfl := Except.ok.inj (hevaluates.tokens_eq.symm.trans htokens)
  obtain rfl := parse_of_derives hevaluates.derives hevaluates.nesting
  rw [htotal]
  exact Tree.le_of_keepsOrder (horder _ htokens hevaluates.derives.isComplete) heval
    hevaluates.inBounds

/-- The total that was found is the largest, if the expression has no products and no quotients. -/
theorem isGreatest_totals (h : largest? expression usual = .ok m)
    (hscale : ∀ s : Scale, s.symbol ∉ expression.toList) :
    IsGreatest (totals expression usual) m := by
  apply isGreatest_of_keepsOrder h
  intro ts htokens hcomplete
  exact Tree.keepsOrder_of_isAdditive (isAdditive_parse htokens hscale hcomplete)

/-- The total that was found is the largest, if the expression has no minus. -/
theorem isGreatest_of_unsigned (h : largest? expression usual = .ok m)
    (hminus : '-' ∉ expression.toList) : IsGreatest (totals expression usual) m := by
  apply isGreatest_of_keepsOrder h
  intro ts htokens hcomplete
  refine (derives_of_parse hcomplete).1.keepsOrder ?_ usual
  intro hmem
  exact hminus ((spells_of_tokens htokens).1.mem_of_token hmem (List.mem_singleton_self _))

/-- **The total that is found as the largest can be rolled.**  No total that can be rolled is
larger, if what dice are multiplied with or divided by is never negative, neither is what is divided
by dice, and such a divisor never changes its sign. -/
theorem largest?_attained (h : largest? expression usual = .ok m) :
    m ∈ totals expression usual ∧
      ((∀ t, parseText expression = .ok t → t.KeepsOrder usual) →
        IsGreatest (totals expression usual) m) := by
  refine ⟨mem_totals h, ?_⟩
  intro horder
  apply isGreatest_of_keepsOrder h
  intro ts htokens _
  apply horder
  rw [parseText, htokens]
  rfl

end Largest

/-- The divisor is smallest when its die shows most, and then the quotient is largest. -/
theorem largest?_attained_quotient :
    largest? "60/(7-1d6)" 100 = .ok 60 ∧ IsGreatest (totals "60/(7-1d6)" 100) 60 := by
  have hlargest : largest? "60/(7-1d6)" 100 = .ok 60 := by decide +kernel
  refine ⟨hlargest, (largest?_attained hlargest).2 ?_⟩
  have hparse : parseText "60/(7-1d6)" = .ok (.product (.number ['6', '0']) .divide
      (.group (.sum (.number ['7']) .minus (.dice (some 1) (some 6))))) := by decide +kernel
  intro t ht
  obtain rfl := Except.ok.inj (hparse.symm.trans ht)
  have hdivisor : Tree.NeverNegative 100
      (.group (.sum (.number ['7']) .minus (.dice (some 1) (some 6)))) := by
    intro numbers first _
    have hsix := sum_shown_le (by decide : 0 < 6) numbers (first + 0) 1
    show 0 ≤ 7 + -((shown 6 numbers (first + 0) 1).sum : Int)
    omega
  refine ⟨trivial, ⟨trivial, trivial⟩, Or.inl rfl, Or.inr ⟨?_, fun _ => Or.inl hdivisor⟩⟩
  intro numbers first _
  exact Int.natCast_nonneg _

/-- **A negative factor misleads the search.**  It takes the highest face of the die, which gives
the smallest total; the lowest face gives more. -/
theorem largest?_negative_factor :
    largest? "-2*1d6" 100 = .ok (-12) ∧
      (∃ detail supply', roll "-2*1d6" 100 (.ofList [1]) = (.ok ⟨-2, detail⟩, supply')) ∧
      ¬IsGreatest (totals "-2*1d6" 100) (-12) := by
  have hroll : ∃ detail supply', roll "-2*1d6" 100 (.ofList [1]) = (.ok ⟨-2, detail⟩, supply') :=
    ⟨_, _, rfl⟩
  refine ⟨by decide +kernel, hroll, ?_⟩
  intro hgreatest
  obtain ⟨detail, supply', hone⟩ := hroll
  have hle : -2 ≤ (-12 : Int) := hgreatest.2 ⟨_, _, _, hone, rfl⟩
  omega

end Tabletop.Dice
