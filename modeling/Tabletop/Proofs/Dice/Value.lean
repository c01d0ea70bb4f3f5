import Mathlib.Algebra.Order.BigOperators.Group.List
import Mathlib.Algebra.Order.Group.Nat
import Tabletop.Proofs.Dice.Grammar
import Tabletop.Proofs.Dice.Parts

/-!
# The value of a dice expression

What the value of a tree is, said without evaluation: the dice are numbered from left to right, and
each subtree knows which of them are its own.  Evaluation arrives at this value exactly if the dice
are such as may be rolled, no divisor is zero, and no sum or product is too large.

## Main definitions

* `Fall.IsFair` — no die shows more than it has faces.
* `Tree.diceCount` — the number of dice of a tree.
* `Tree.value` — the value of a tree, the first of its dice having a given number.
* `Tree.InBounds` — the conditions under which the tree has this value.
* `Tree.Fits` — the numerals of a tree have at most nine digits.

## Main results

* `Tree.eval_of_inBounds` — **a tree in bounds is evaluated to its value**, and its dice are thrown.
* `Tree.inBounds_of_eval` — only a tree in bounds is evaluated.
* `Tree.natAbs_le_of_eval` — the value of an expression is no larger than a sum may be.
-/

namespace Tabletop.Dice

open Text

/-- The product of two factors, or their quotient with the fraction dropped. -/
def Scale.apply : Scale → Int → Int → Int
  | times, a, b => a * b
  | divide, a, b => a.tdiv b

/-- Two factors may be joined: their product is not too large, or the divisor is not zero. -/
def Scale.Allows : Scale → Int → Int → Prop
  | times, a, b => (a * b).natAbs ≤ maxTotal
  | divide, _, b => b ≠ 0

instance (s : Scale) (a b : Int) : Decidable (s.Allows a b) :=
  match s with
  | .times => inferInstanceAs (Decidable ((a * b).natAbs ≤ maxTotal))
  | .divide => inferInstanceAs (Decidable (b ≠ 0))

theorem bounded_eq_error {n : Int} {f : Fault} (h : bounded n = .error f) :
    maxTotal < n.natAbs ∧ f = .totalTooLarge := by
  unfold bounded at h
  split at h
  · cases h
  · next hlarge =>
    cases h
    exact ⟨Nat.not_le.1 hlarge, rfl⟩

theorem Sign.join_eq_ok_iff {s : Sign} {a b n : Int} :
    s.join a b = .ok n ↔ (a + s.apply b).natAbs ≤ maxTotal ∧ n = a + s.apply b :=
  bounded_eq_ok_iff

theorem Scale.join_eq_ok_iff {s : Scale} {a b n : Int} :
    s.join a b = .ok n ↔ s.Allows a b ∧ n = s.apply a b := by
  cases s with
  | times => exact bounded_eq_ok_iff
  | divide =>
    by_cases hb : b = 0
    · rw [join, if_pos hb]
      exact ⟨fun h => (by cases h), fun h => absurd hb h.1⟩
    · rw [join, if_neg hb, Except.ok.injEq]
      exact ⟨fun h => ⟨hb, h.symm⟩, fun h => h.2.symm⟩

/-- What so many dice show, the first of them having a given number. -/
def shown (faces : Nat) (numbers : Nat → Int) (first count : Nat) : List Nat :=
  (List.range count).map fun i => Supply.face faces (numbers (first + i))

/-- A die that falls in this way shows no more than it has faces. -/
def Fall.IsFair (fall : Fall) : Prop :=
  ∀ sense faces s, 1 ≤ faces → (fall sense faces s).1 ≤ faces

theorem isFair_rolled : Fall.IsFair rolled := fun _ _ _ hfaces => Supply.face_le hfaces _

theorem isFair_highest : Fall.IsFair highest := by
  intro sense faces s hfaces
  cases sense with
  | same => exact Nat.le_refl faces
  | opposite => exact hfaces

theorem mem_throwDice_le {die : StateM Supply Nat} {m : Nat} (h : ∀ s, (die s).1 ≤ m) (n : Nat)
    (s : Supply) : ∀ v ∈ (throwDice die n s).1, v ≤ m := by
  induction n generalizing s with
  | zero => exact List.forall_mem_nil _
  | succ n ih =>
    rw [throwDice_succ]
    exact List.forall_mem_cons.2 ⟨h s, ih _⟩

namespace Tree

/-- The number of dice of a tree. -/
def diceCount : Tree → Nat
  | number _ => 0
  | dice count _ => count.getD 1
  | signed _ t => t.diceCount
  | group t => t.diceCount
  | sum l _ r => l.diceCount + r.diceCount
  | product l _ r => l.diceCount + r.diceCount
  | fault _ => 0
  | stopped t _ => t.diceCount

section Value

variable (usual : Int) (numbers : Nat → Int)

/-- The value of a tree, the first of its dice having a given number.  The dice on the right come
after those on the left. -/
def value : Tree → Nat → Int
  | number ds, _ => numeralValue ds
  | dice count faces, first =>
    (shown (facesOr usual faces).toNat numbers first (count.getD 1)).sum
  | signed s t, first => s.apply (t.value first)
  | group t, first => t.value first
  | sum l s r, first => l.value first + s.apply (r.value (first + l.diceCount))
  | product l s r, first => s.apply (l.value first) (r.value (first + l.diceCount))
  | fault _, _ => 0
  | stopped t _, first => t.value first

/-- The dice are such as may be rolled, no divisor is zero, and no sum or product is too large. -/
def InBounds : Tree → Nat → Prop
  | number _, _ => True
  | dice count faces, _ =>
    (1 ≤ count.getD 1 ∧ count.getD 1 ≤ maxDice) ∧
      (1 ≤ facesOr usual faces ∧ facesOr usual faces ≤ maxFaces)
  | signed _ t, first => t.InBounds first
  | group t, first => t.InBounds first
  | sum l s r, first =>
    l.InBounds first ∧ r.InBounds (first + l.diceCount) ∧
      ((sum l s r).value usual numbers first).natAbs ≤ maxTotal
  | product l s r, first =>
    l.InBounds first ∧ r.InBounds (first + l.diceCount) ∧
      s.Allows (l.value usual numbers first) (r.value usual numbers (first + l.diceCount))
  | fault _, _ => False
  | stopped _ _, _ => False

instance decidableInBounds : (t : Tree) → (first : Nat) →
    Decidable (t.InBounds usual numbers first)
  | number _, _ => inferInstanceAs (Decidable True)
  | dice _ _, _ => inferInstanceAs (Decidable ((_ ∧ _) ∧ _ ∧ _))
  | signed _ t, first => decidableInBounds t first
  | group t, first => decidableInBounds t first
  | sum l _ r, first =>
    have := decidableInBounds l first
    have := decidableInBounds r (first + l.diceCount)
    inferInstanceAs (Decidable (_ ∧ _ ∧ _ ≤ _))
  | product l s r, first =>
    have := decidableInBounds l first
    have := decidableInBounds r (first + l.diceCount)
    inferInstanceAs (Decidable (_ ∧ _ ∧ s.Allows _ _))
  | fault _, _ => inferInstanceAs (Decidable False)
  | stopped _ _, _ => inferInstanceAs (Decidable False)

end Value

/-! ### Evaluation -/

theorem throwDice_draw_fst (faces n : Nat) (s : Supply) :
    (throwDice (Supply.draw faces) n s).1 = shown faces s.value s.drawn n := by
  induction n generalizing s with
  | zero => rfl
  | succ n ih =>
    rw [throwDice_succ, ih, shown, shown, List.range_succ_eq_map, List.map_cons, List.map_map]
    simp only [Supply.draw_apply, Nat.add_zero, List.cons.injEq, true_and]
    refine List.map_congr_left fun i _ => ?_
    rw [Function.comp_apply, Nat.succ_eq_add_one, Nat.add_assoc, Nat.add_comm 1 i]

theorem diceTerm_eq_ok_iff {usual : Int} {count faces : Option Nat} {n m : Nat} :
    diceTerm usual count faces = .ok (n, m) ↔
      ((1 ≤ count.getD 1 ∧ count.getD 1 ≤ maxDice) ∧
        (1 ≤ facesOr usual faces ∧ facesOr usual faces ≤ maxFaces)) ∧
      n = count.getD 1 ∧ m = (facesOr usual faces).toNat := by
  unfold diceTerm
  simp only
  split
  · next hcount =>
    split
    · next hfaces =>
      rw [Except.ok.injEq, Prod.mk.injEq]
      exact ⟨fun h => ⟨⟨hcount, hfaces⟩, h.1.symm, h.2.symm⟩, fun h => ⟨h.2.1.symm, h.2.2.symm⟩⟩
    · next hfaces => exact ⟨fun h => (by cases h), fun h => absurd h.1.2 hfaces⟩
  · next hcount => exact ⟨fun h => (by cases h), fun h => absurd h.1.1 hcount⟩

/-- The count is looked at before the faces. -/
theorem diceTerm_eq_error {usual : Int} {count faces : Option Nat} {f : Fault}
    (h : diceTerm usual count faces = .error f) :
    (¬(1 ≤ count.getD 1 ∧ count.getD 1 ≤ maxDice) ∧ f = .diceCount (count.getD 1)) ∨
      (¬(1 ≤ facesOr usual faces ∧ facesOr usual faces ≤ maxFaces) ∧
        f = .dieFaces (facesOr usual faces)) := by
  unfold diceTerm at h
  simp only at h
  split at h
  · split at h
    · cases h
    · next hfaces =>
      cases h
      exact .inr ⟨hfaces, rfl⟩
  · next hcount =>
    cases h
    exact .inl ⟨hcount, rfl⟩

section Joined

variable {l r : Throwing Fault Reading} {join : Int → Int → Except Fault Int}
  {expansion : Tree → Tree → Tree} {s s' : Supply}

/-- Two readings one after the other, and then their totals joined. -/
def joined (l r : Throwing Fault Reading) (join : Int → Int → Except Fault Int)
    (expansion : Tree → Tree → Tree) : Throwing Fault Reading := fun s =>
  match l s with
  | (.error e, s') => (.error e, s')
  | (.ok a, s') =>
    match r s' with
    | (.error e, s'') => (.error e, s'')
    | (.ok b, s'') =>
      ((join a.total b.total).map fun n => ⟨n, expansion a.expansion b.expansion⟩, s'')

theorem joined_of_ok {a b : Reading} {s₁ : Supply} {n : Int} (hl : l s = (.ok a, s₁))
    (hr : r s₁ = (.ok b, s')) (hjoin : join a.total b.total = .ok n) :
    joined l r join expansion s = (.ok ⟨n, expansion a.expansion b.expansion⟩, s') := by
  simp only [joined, hl, hr, hjoin]
  rfl

theorem joined_eq_ok {out : Reading} (h : joined l r join expansion s = (.ok out, s')) :
    ∃ a s₁ b, l s = (.ok a, s₁) ∧ r s₁ = (.ok b, s') ∧ join a.total b.total = .ok out.total ∧
      out.expansion = expansion a.expansion b.expansion := by
  unfold joined at h
  rcases hl : l s with ⟨e | a, s₁⟩
  · simp only [hl] at h
    cases h
  rcases hr : r s₁ with ⟨e | b, s₂⟩
  · simp only [hl, hr] at h
    cases h
  simp only [hl, hr] at h
  rcases hjoin : join a.total b.total with e | n
  · rw [hjoin] at h
    cases h
  · rw [hjoin] at h
    cases h
    exact ⟨a, s₁, b, rfl, hr, hjoin, rfl⟩

/-- A fault is one of the first reading, of the second, or of joining them. -/
theorem joined_eq_error {f : Fault} (h : joined l r join expansion s = (.error f, s')) :
    l s = (.error f, s') ∨
      ∃ a s₁, l s = (.ok a, s₁) ∧
        (r s₁ = (.error f, s') ∨
          ∃ b, r s₁ = (.ok b, s') ∧ join a.total b.total = .error f) := by
  unfold joined at h
  rcases hl : l s with ⟨e | a, s₁⟩
  · simp only [hl] at h
    cases h
    exact .inl rfl
  rcases hr : r s₁ with ⟨e | b, s₂⟩
  · simp only [hl, hr] at h
    cases h
    exact .inr ⟨a, s₁, rfl, .inl hr⟩
  simp only [hl, hr] at h
  rcases hjoin : join a.total b.total with e | n
  · rw [hjoin] at h
    cases h
    exact .inr ⟨a, s₁, rfl, .inr ⟨b, hr, hjoin⟩⟩
  · rw [hjoin] at h
    cases h

/-- Readings that agree where they are used are joined alike. -/
theorem joined_congr {l' r' : Throwing Fault Reading} (hl : l' s = l s)
    (hr : ∀ a s₁, l s = (.ok a, s₁) → r' s₁ = r s₁) :
    joined l' r' join expansion s = joined l r join expansion s := by
  unfold joined
  rw [hl]
  rcases hleft : l s with ⟨e | a, s₁⟩
  · rfl
  · simp only [hr a s₁ hleft]

end Joined

theorem eval_sum_eq_joined (fall : Fall) (usual : Int) (sense : Sense) (l r : Tree) (sign : Sign) :
    (sum l sign r).eval fall usual sense =
      joined (l.eval fall usual sense) (r.eval fall usual (sense.behind sign)) sign.join
        fun a b => .sum a sign b :=
  funext fun s => eval_sum fall usual sense l r sign s

theorem eval_product_eq_joined (fall : Fall) (usual : Int) (sense : Sense) (l r : Tree)
    (scale : Scale) :
    (product l scale r).eval fall usual sense =
      joined (l.eval fall usual sense) (r.eval fall usual (sense.under scale)) scale.join
        fun a b => .product a scale b :=
  funext fun s => eval_product fall usual sense l r scale s

section Inversion

variable {fall : Fall} {usual : Int} {sense : Sense} {t : Tree} {s s' : Supply} {f : Fault}
  {out : Reading}

/-- A fault behind a sign is one of what is signed. -/
theorem eval_signed_eq_error {sign : Sign}
    (h : (signed sign t).eval fall usual sense s = (.error f, s')) :
    t.eval fall usual (sense.behind sign) s = (.error f, s') := by
  rw [eval_signed] at h
  rcases heval : t.eval fall usual (sense.behind sign) s with ⟨e | a, s₁⟩
  · rw [heval] at h
    exact h
  · rw [heval] at h
    cases h

/-- A fault of a group is one of what it holds. -/
theorem eval_group_eq_error (h : (group t).eval fall usual sense s = (.error f, s')) :
    t.eval fall usual sense s = (.error f, s') := by
  rw [eval_group] at h
  rcases heval : t.eval fall usual sense s with ⟨e | a, s₁⟩
  · rw [heval] at h
    exact h
  · rw [heval] at h
    cases h

theorem eval_signed_eq_ok {sign : Sign}
    (h : (signed sign t).eval fall usual sense s = (.ok out, s')) :
    ∃ a, t.eval fall usual (sense.behind sign) s = (.ok a, s') ∧
      out.total = sign.apply a.total ∧ out.expansion = .signed sign a.expansion := by
  rw [eval_signed] at h
  rcases heval : t.eval fall usual (sense.behind sign) s with ⟨f | a, s₁⟩
  · rw [heval] at h
    cases h
  · rw [heval] at h
    cases h
    exact ⟨a, rfl, rfl, rfl⟩

theorem eval_group_eq_ok (h : (group t).eval fall usual sense s = (.ok out, s')) :
    ∃ a, t.eval fall usual sense s = (.ok a, s') ∧ out.total = a.total ∧
      out.expansion = .group a.expansion := by
  rw [eval_group] at h
  rcases heval : t.eval fall usual sense s with ⟨f | a, s₁⟩
  · rw [heval] at h
    cases h
  · rw [heval] at h
    cases h
    exact ⟨a, rfl, rfl, rfl⟩

/-- A term of dice is evaluated to what the dice show, if they are such as may be rolled. -/
theorem eval_dice_eq_ok {count faces : Option Nat}
    (h : (dice count faces).eval fall usual sense s = (.ok out, s')) :
    ((1 ≤ count.getD 1 ∧ count.getD 1 ≤ maxDice) ∧
        (1 ≤ facesOr usual faces ∧ facesOr usual faces ≤ maxFaces)) ∧
      ∃ values, throwDice (fall sense (facesOr usual faces).toNat) (count.getD 1) s = (values, s') ∧
        out = ⟨(values.sum : Nat), .ofValues values⟩ := by
  rw [eval_dice] at h
  rcases hterm : diceTerm usual count faces with f | ⟨n, m⟩
  · rw [hterm] at h
    cases h
  · obtain ⟨hbounds, rfl, rfl⟩ := diceTerm_eq_ok_iff.1 hterm
    rw [hterm] at h
    cases h
    exact ⟨hbounds, _, rfl, rfl⟩

/-- A fault of a term of dice is that of its count or of its faces. -/
theorem eval_dice_eq_error {count faces : Option Nat}
    (h : (dice count faces).eval fall usual sense s = (.error f, s')) :
    diceTerm usual count faces = .error f := by
  rw [eval_dice] at h
  rcases hterm : diceTerm usual count faces with e | ⟨n, m⟩
  · rw [hterm] at h
    cases h
    rfl
  · rw [hterm] at h
    cases h

/-- Dice show as many numbers as there are dice, none of them larger than a die may have faces. -/
theorem exists_values_of_eval_dice {count faces : Option Nat} (hfall : fall.IsFair)
    (h : (dice count faces).eval fall usual sense s = (.ok out, s')) :
    ∃ values : List Nat, values.length ≤ maxDice ∧ (∀ v ∈ values, v ≤ maxFaces) ∧
      out = ⟨(values.sum : Nat), .ofValues values⟩ := by
  obtain ⟨⟨hcount, hfaces⟩, values, hthrow, hout⟩ := eval_dice_eq_ok h
  obtain rfl := congrArg Prod.fst hthrow
  refine ⟨_, ?_, ?_, hout⟩
  · rw [length_throwDice]
    exact hcount.2
  · exact mem_throwDice_le (fun s => Nat.le_trans (hfall sense _ s (by omega)) (by omega)) _ s

theorem eval_stopped_ne_ok :
    (stopped t f).eval fall usual sense s ≠ (.ok out, s') := by
  intro h
  rw [eval_stopped] at h
  rcases heval : t.eval fall usual sense s with ⟨e | a, s₁⟩
  · rw [heval] at h
    cases h
  · rw [heval] at h
    cases h

end Inversion

section Eval

variable {usual : Int}

/-- **A tree in bounds is evaluated to its value**, and its dice are thrown from left to right. -/
theorem eval_of_inBounds {t : Tree} (sense : Sense) (s : Supply)
    (h : t.InBounds usual s.value s.drawn) :
    ∃ expansion, t.eval rolled usual sense s =
      (.ok ⟨t.value usual s.value s.drawn, expansion⟩,
        { s with drawn := s.drawn + t.diceCount }) := by
  induction t generalizing sense s with
  | number ds => exact ⟨_, rfl⟩
  | dice count faces =>
    have hterm := diceTerm_eq_ok_iff.2 ⟨h, rfl, rfl⟩
    rw [eval_dice, hterm]
    simp only [rolled, throwDice_draw_fst, throwDice_draw_snd]
    exact ⟨_, rfl⟩
  | signed sign t ih =>
    obtain ⟨expansion, heval⟩ := ih (sense.behind sign) s h
    rw [eval_signed, heval]
    exact ⟨_, rfl⟩
  | group t ih =>
    obtain ⟨expansion, heval⟩ := ih sense s h
    rw [eval_group, heval]
    exact ⟨_, rfl⟩
  | sum l sign r ihl ihr =>
    obtain ⟨hl, hr, htotal⟩ := h
    obtain ⟨expansionl, hevall⟩ := ihl sense s hl
    obtain ⟨expansionr, hevalr⟩ := ihr (sense.behind sign)
      { s with drawn := s.drawn + l.diceCount } hr
    have hjoin : sign.join (l.value usual s.value s.drawn)
        (r.value usual s.value (s.drawn + l.diceCount)) =
          .ok ((sum l sign r).value usual s.value s.drawn) := Sign.join_eq_ok_iff.2 ⟨htotal, rfl⟩
    rw [eval_sum_eq_joined, joined_of_ok hevall hevalr hjoin, diceCount, Nat.add_assoc]
    exact ⟨_, rfl⟩
  | product l scale r ihl ihr =>
    obtain ⟨hl, hr, hallows⟩ := h
    obtain ⟨expansionl, hevall⟩ := ihl sense s hl
    obtain ⟨expansionr, hevalr⟩ := ihr (sense.under scale)
      { s with drawn := s.drawn + l.diceCount } hr
    have hjoin : scale.join (l.value usual s.value s.drawn)
        (r.value usual s.value (s.drawn + l.diceCount)) =
          .ok ((product l scale r).value usual s.value s.drawn) :=
      Scale.join_eq_ok_iff.2 ⟨hallows, rfl⟩
    rw [eval_product_eq_joined, joined_of_ok hevall hevalr hjoin, diceCount, Nat.add_assoc]
    exact ⟨_, rfl⟩
  | fault f => exact h.elim
  | stopped t f => exact h.elim

/-- **Only a tree in bounds is evaluated**, and only to its value. -/
theorem inBounds_of_eval {t : Tree} {sense : Sense} {s s' : Supply} {out : Reading}
    (h : t.eval rolled usual sense s = (.ok out, s')) :
    t.InBounds usual s.value s.drawn ∧ out.total = t.value usual s.value s.drawn ∧
      s' = { s with drawn := s.drawn + t.diceCount } := by
  induction t generalizing sense s out s' with
  | number ds =>
    cases h
    exact ⟨trivial, rfl, rfl⟩
  | dice count faces =>
    obtain ⟨hbounds, values, hthrow, rfl⟩ := eval_dice_eq_ok h
    obtain ⟨rfl, rfl⟩ := Prod.mk.inj hthrow
    simp only [rolled, throwDice_draw_fst, throwDice_draw_snd]
    exact ⟨hbounds, rfl, rfl⟩
  | signed sign t ih =>
    obtain ⟨a, heval, htotal, -⟩ := eval_signed_eq_ok h
    obtain ⟨hbounds, hvalue, rfl⟩ := ih heval
    exact ⟨hbounds, htotal.trans (congrArg sign.apply hvalue), rfl⟩
  | group t ih =>
    obtain ⟨a, heval, htotal, -⟩ := eval_group_eq_ok h
    obtain ⟨hbounds, hvalue, rfl⟩ := ih heval
    exact ⟨hbounds, htotal.trans hvalue, rfl⟩
  | sum l sign r ihl ihr =>
    rw [eval_sum_eq_joined] at h
    obtain ⟨a, s₁, b, hevall, hevalr, hjoin, -⟩ := joined_eq_ok h
    obtain ⟨hl, hltotal, rfl⟩ := ihl hevall
    obtain ⟨hr, hrtotal, rfl⟩ := ihr hevalr
    rw [hltotal, hrtotal, Sign.join_eq_ok_iff] at hjoin
    exact ⟨⟨hl, hr, hjoin.1⟩, hjoin.2, by rw [diceCount, Nat.add_assoc]⟩
  | product l scale r ihl ihr =>
    rw [eval_product_eq_joined] at h
    obtain ⟨a, s₁, b, hevall, hevalr, hjoin, -⟩ := joined_eq_ok h
    obtain ⟨hl, hltotal, rfl⟩ := ihl hevall
    obtain ⟨hr, hrtotal, rfl⟩ := ihr hevalr
    rw [hltotal, hrtotal, Scale.join_eq_ok_iff] at hjoin
    exact ⟨⟨hl, hr, hjoin.1⟩, hjoin.2, by rw [diceCount, Nat.add_assoc]⟩
  | fault f => cases h
  | stopped t f => exact absurd h eval_stopped_ne_ok

end Eval

theorem isComplete_of_inBounds {usual : Int} {numbers : Nat → Int} {t : Tree} {first : Nat}
    (h : t.InBounds usual numbers first) : t.isComplete = true := by
  induction t generalizing first with
  | number | dice => rfl
  | signed _ _ ih | group _ ih => exact ih h
  | sum _ _ _ ihl ihr | product _ _ _ ihl ihr =>
    rw [isComplete, ihl h.1, ihr h.2.1]
    rfl
  | fault | stopped => exact h.elim

end Tree

/-! ### The size of a value -/

theorem sum_shown_le {faces : Nat} (h : 0 < faces) (numbers : Nat → Int) (first count : Nat) :
    (shown faces numbers first count).sum ≤ count * faces := by
  induction count with
  | zero => exact Nat.zero_le _
  | succ count ih =>
    have hface := Supply.face_le h (numbers (first + count))
    rw [shown] at ih
    rw [shown, List.range_succ, List.map_append, List.sum_append, List.map_singleton,
      List.sum_singleton, Nat.succ_mul]
    exact Nat.add_le_add ih hface

/-- What the dice of one term show is never too large. -/
theorem sum_le_maxTotal {values : List Nat} (hlength : values.length ≤ maxDice)
    (h : ∀ v ∈ values, v ≤ maxFaces) : values.sum ≤ maxTotal := by
  have hmax : maxDice * maxFaces ≤ maxTotal := by decide
  have hsum : values.sum ≤ values.length * maxFaces := List.sum_le_card_nsmul values maxFaces h
  exact Nat.le_trans hsum (Nat.le_trans (Nat.mul_le_mul_right maxFaces hlength) hmax)

theorem natAbs_apply (s : Sign) (n : Int) : (s.apply n).natAbs = n.natAbs := by
  cases s with
  | plus => rfl
  | minus => exact Int.natAbs_neg n

/-- A numeral that fits is never too large. -/
theorem numeralValue_le_maxTotal {ds : List Char} (h : ds.length ≤ maxDigits) :
    numeralValue ds ≤ maxTotal := by
  have hnine : maxDigits ≤ 15 := by decide
  have hpow : 10 ^ ds.length ≤ 10 ^ 15 := Nat.pow_le_pow_right (by omega) (Nat.le_trans h hnine)
  exact Nat.le_trans (Nat.le_of_lt (numeralValue_lt ds)) hpow

/-- The numerals of a tree have at most nine digits. -/
def Tree.Fits (t : Tree) : Prop := ∀ ds, .number ds ∈ t.parts → ds.length ≤ maxDigits

theorem Tree.Fits.of_mem_parts {t u : Tree} (h : t.Fits) (hu : u ∈ t.parts) : u.Fits :=
  fun ds hds => h ds (mem_parts_trans hds hu)

theorem fits_parse {ts : List Token} (h : ts.all Token.fits = true) : (parse ts).Fits := by
  intro ds hds
  exact of_decide_eq_true (List.all_eq_true.1 h _ (comesFrom_of_mem_parts_parse hds))

/-- **No value is larger than a sum may be**, however the dice fall.  Sums and products are looked
at, numerals and dice are small to begin with, and a quotient is no larger than its dividend. -/
theorem Tree.natAbs_le_of_eval {fall : Fall} (hfall : fall.IsFair) {usual : Int} {t : Tree}
    (ht : t.Fits) {sense : Sense} {s s' : Supply} {out : Reading}
    (h : t.eval fall usual sense s = (.ok out, s')) : out.total.natAbs ≤ maxTotal := by
  induction t generalizing sense s s' out with
  | number ds =>
    cases h
    exact numeralValue_le_maxTotal (ht ds List.mem_cons_self)
  | dice count faces =>
    obtain ⟨values, hlength, hvalues, rfl⟩ := exists_values_of_eval_dice hfall h
    exact sum_le_maxTotal hlength hvalues
  | signed sign t ih =>
    obtain ⟨a, heval, htotal, -⟩ := eval_signed_eq_ok h
    rw [htotal, natAbs_apply]
    exact ih (ht.of_mem_parts (List.mem_cons_of_mem _ t.mem_parts_self)) heval
  | group t ih =>
    obtain ⟨a, heval, htotal, -⟩ := eval_group_eq_ok h
    rw [htotal]
    exact ih (ht.of_mem_parts (List.mem_cons_of_mem _ t.mem_parts_self)) heval
  | sum l sign r =>
    rw [eval_sum_eq_joined] at h
    obtain ⟨a, s₁, b, -, -, hjoin, -⟩ := joined_eq_ok h
    obtain ⟨hbound, htotal⟩ := Sign.join_eq_ok_iff.1 hjoin
    rwa [htotal]
  | product l scale r ihl =>
    rw [eval_product_eq_joined] at h
    obtain ⟨a, s₁, b, hl, -, hjoin, -⟩ := joined_eq_ok h
    obtain ⟨hallows, htotal⟩ := Scale.join_eq_ok_iff.1 hjoin
    rw [htotal]
    cases scale with
    | times => exact hallows
    | divide =>
      have hdividend := ihl (ht.of_mem_parts
        (List.mem_cons_of_mem _ (List.mem_append_left _ l.mem_parts_self))) hl
      exact Nat.le_trans (Int.natAbs_tdiv_le_natAbs _ _) hdividend
  | fault f => cases h
  | stopped t f => exact absurd h eval_stopped_ne_ok

end Tabletop.Dice
