import Tabletop.Dice.Parser
import Tabletop.Dice.Supply

/-!
# The value of a dice expression

Evaluation goes through the tree from left to right.  It gives the total together with the tree in
which every term of dice is replaced by what the dice showed.

How a die falls is a parameter.  When dice are rolled it is the next die of the supply.  When the
largest total is wanted, a die shows its highest face where a larger number makes the total
larger, and a one where it makes the total smaller: the *sense* turns at the right side of a minus,
behind a minus sign, and at a divisor.

## Main definitions

* `Sense` — whether a larger number here makes the total larger.
* `Fall` — how a die falls; `rolled` and `highest` are the two ways.
* `Reading` — a total with the tree of what the dice showed.
* `Tree.eval` — the evaluation.

## Main results

* `Tree.eval_sum`, `Tree.eval_product`, … — what evaluation does with a given supply.
-/

namespace Tabletop.Dice

/-- Whether a larger number at a place makes the total larger or smaller. -/
inductive Sense where
  /-- Larger. -/
  | same
  /-- Smaller. -/
  | opposite
  deriving DecidableEq, Repr

/-- The other sense. -/
def Sense.turn : Sense → Sense
  | same => opposite
  | opposite => same

/-- Turning twice gives the sense back. -/
@[simp] theorem Sense.turn_turn (sense : Sense) : sense.turn.turn = sense := by
  cases sense <;> rfl

/-- A plus keeps the sense and a minus turns it. -/
def Sense.behind (sense : Sense) : Sign → Sense
  | .plus => sense
  | .minus => sense.turn

/-- A factor keeps the sense and a divisor turns it. -/
def Sense.under (sense : Sense) : Scale → Sense
  | .times => sense
  | .divide => sense.turn

/-- How a die with so many faces falls. -/
abbrev Fall := Sense → Nat → StateM Supply Nat

/-- A die is the next one of the supply. -/
def rolled : Fall := fun _ faces => Supply.draw faces

/-- A die shows the face that makes the total largest, and the supply is left alone. -/
def highest : Fall := fun sense faces =>
  match sense with
  | .same => pure faces
  | .opposite => pure 1

/-- Something that takes dice from the supply and may fail; the dice are gone also if it fails. -/
abbrev Throwing (ε : Type) := ExceptT ε (StateM Supply)

/-- A total, with the tree in which the dice are replaced by what they showed. -/
structure Reading where
  /-- The value of the expression. -/
  total : Int
  /-- The tree with the numbers that the dice showed. -/
  expansion : Tree
  deriving DecidableEq, Repr

/-- A sum or product, unless it is too large. -/
def bounded (n : Int) : Except Fault Int :=
  if n.natAbs ≤ maxTotal then .ok n else .error .totalTooLarge

/-- A number is let through exactly if it is not too large. -/
theorem bounded_eq_ok_iff {n m : Int} : bounded n = .ok m ↔ n.natAbs ≤ maxTotal ∧ m = n := by
  unfold bounded
  split
  · next h => simp [h, eq_comm]
  · next h => simp [h]

/-- The value of a factor with a sign before it. -/
def Sign.apply : Sign → Int → Int
  | plus, n => n
  | minus, n => -n

/-- The sum or difference of two terms. -/
def Sign.join (s : Sign) (a b : Int) : Except Fault Int := bounded (a + s.apply b)

/-- The product of two factors, or their quotient with the fraction dropped. -/
def Scale.join : Scale → Int → Int → Except Fault Int
  | times, a, b => bounded (a * b)
  | divide, a, b => if b = 0 then .error .divisionByZero else .ok (a.tdiv b)

/-- The dice of a term: how many there are and how many faces they have. -/
def diceTerm (usual : Int) (count faces : Option Nat) : Except Fault (Nat × Nat) :=
  let n := count.getD 1
  let m := Tree.facesOr usual faces
  if 1 ≤ n ∧ n ≤ maxDice then
    if 1 ≤ m ∧ m ≤ maxFaces then .ok (n, m.toNat) else .error (.dieFaces m)
  else .error (.diceCount n)

/-- Evaluates a tree; `usual` is the number of faces where none is given. -/
def Tree.eval (fall : Fall) (usual : Int) : Sense → Tree → Throwing Fault Reading
  | _, .number ds => pure ⟨Text.numeralValue ds, .number ds⟩
  | sense, .dice count faces => do
      let (n, m) ← liftExcept (diceTerm usual count faces)
      let values ← liftDice (throwDice (fall sense m) n)
      pure ⟨(values.foldr (· + ·) 0 : Nat), .ofValues values⟩
  | sense, .signed s t => do
      let r ← t.eval fall usual (sense.behind s)
      pure ⟨s.apply r.total, .signed s r.expansion⟩
  | sense, .group t => do
      let r ← t.eval fall usual sense
      pure ⟨r.total, .group r.expansion⟩
  | sense, .sum l s r => do
      let a ← l.eval fall usual sense
      let b ← r.eval fall usual (sense.behind s)
      let total ← liftExcept (s.join a.total b.total)
      pure ⟨total, .sum a.expansion s b.expansion⟩
  | sense, .product l s r => do
      let a ← l.eval fall usual sense
      let b ← r.eval fall usual (sense.under s)
      let total ← liftExcept (s.join a.total b.total)
      pure ⟨total, .product a.expansion s b.expansion⟩
  | _, .fault f => throw f
  | sense, .stopped t f => do
      let _ ← t.eval fall usual sense
      throw f
where
  /-- A result that takes no dice. -/
  liftExcept {α : Type} (r : Except Fault α) : Throwing Fault α := ExceptT.mk (pure r)
  /-- Dice that are thrown and never fail. -/
  liftDice {α : Type} (dice : StateM Supply α) : Throwing Fault α := ExceptT.lift dice

/-! ### Evaluation with a given supply -/

/-- A result may be changed after the dice were taken. -/
theorem Throwing.map_apply {ε α β : Type} (f : α → β) (throwing : Throwing ε α) (s : Supply) :
    (f <$> throwing) s =
      match throwing s with
      | (.ok a, s') => (.ok (f a), s')
      | (.error e, s') => (.error e, s') := by
  rcases h : throwing s with ⟨e | a, s'⟩
  · simp only [Functor.map, ExceptT.map, ExceptT.mk, StateT.bind, bind, h]
    rfl
  · simp only [Functor.map, ExceptT.map, ExceptT.mk, StateT.bind, bind, h]
    rfl

namespace Tree

/-- A number is its own value and takes no dice. -/
theorem eval_number (fall : Fall) (usual : Int) (sense : Sense) (ds : List Char) (s : Supply) :
    (number ds).eval fall usual sense s = (.ok ⟨Text.numeralValue ds, .number ds⟩, s) := rfl

/-- Dice are thrown once their count and their faces are found to be in order. -/
theorem eval_dice (fall : Fall) (usual : Int) (sense : Sense) (count faces : Option Nat)
    (s : Supply) :
    (dice count faces).eval fall usual sense s =
      match diceTerm usual count faces with
      | .ok (n, m) =>
        (.ok ⟨((throwDice (fall sense m) n s).1.foldr (· + ·) 0 : Nat),
            .ofValues (throwDice (fall sense m) n s).1⟩,
          (throwDice (fall sense m) n s).2)
      | .error e => (.error e, s) := by
  rcases h : diceTerm usual count faces with e | ⟨n, m⟩
  · simp only [eval, eval.liftExcept, h]
    rfl
  · simp only [eval, eval.liftExcept, h]
    rfl

/-- A sign is applied to the value of the factor behind it. -/
theorem eval_signed (fall : Fall) (usual : Int) (sense : Sense) (sign : Sign) (t : Tree)
    (s : Supply) :
    (signed sign t).eval fall usual sense s =
      match t.eval fall usual (sense.behind sign) s with
      | (.ok r, s') => (.ok ⟨sign.apply r.total, .signed sign r.expansion⟩, s')
      | (.error e, s') => (.error e, s') := by
  rcases h : t.eval fall usual (sense.behind sign) s with ⟨e | r, s'⟩
  · simp only [eval, bind, ExceptT.bind, ExceptT.mk, ExceptT.bindCont, StateT.bind, h]
    rfl
  · simp only [eval, bind, ExceptT.bind, ExceptT.mk, ExceptT.bindCont, StateT.bind, h]
    rfl

/-- An expression in parentheses has the value of the expression. -/
theorem eval_group (fall : Fall) (usual : Int) (sense : Sense) (t : Tree) (s : Supply) :
    (group t).eval fall usual sense s =
      match t.eval fall usual sense s with
      | (.ok r, s') => (.ok ⟨r.total, .group r.expansion⟩, s')
      | (.error e, s') => (.error e, s') := by
  rcases h : t.eval fall usual sense s with ⟨e | r, s'⟩
  · simp only [eval, bind, ExceptT.bind, ExceptT.mk, ExceptT.bindCont, StateT.bind, h]
    rfl
  · simp only [eval, bind, ExceptT.bind, ExceptT.mk, ExceptT.bindCont, StateT.bind, h]
    rfl

/-- The left term of a sum is evaluated before the right one. -/
theorem eval_sum (fall : Fall) (usual : Int) (sense : Sense) (l r : Tree) (sign : Sign)
    (s : Supply) :
    (sum l sign r).eval fall usual sense s =
      match l.eval fall usual sense s with
      | (.error e, s') => (.error e, s')
      | (.ok a, s') =>
        match r.eval fall usual (sense.behind sign) s' with
        | (.error e, s'') => (.error e, s'')
        | (.ok b, s'') =>
          ((sign.join a.total b.total).map fun n => ⟨n, .sum a.expansion sign b.expansion⟩,
            s'') := by
  rcases hl : l.eval fall usual sense s with ⟨e | a, s'⟩
  · simp only [eval, bind, ExceptT.bind, ExceptT.mk, ExceptT.bindCont, StateT.bind, hl]
    rfl
  · rcases hr : r.eval fall usual (sense.behind sign) s' with ⟨e | b, s''⟩
    · simp only [eval, bind, ExceptT.bind, ExceptT.mk, ExceptT.bindCont, StateT.bind, hl, hr]
      rfl
    · simp only [eval, eval.liftExcept, bind, ExceptT.bind, ExceptT.mk, ExceptT.bindCont,
        StateT.bind, hl, hr]
      rcases sign.join a.total b.total with e | n
      · rfl
      · rfl

/-- The left factor of a product is evaluated before the right one. -/
theorem eval_product (fall : Fall) (usual : Int) (sense : Sense) (l r : Tree) (scale : Scale)
    (s : Supply) :
    (product l scale r).eval fall usual sense s =
      match l.eval fall usual sense s with
      | (.error e, s') => (.error e, s')
      | (.ok a, s') =>
        match r.eval fall usual (sense.under scale) s' with
        | (.error e, s'') => (.error e, s'')
        | (.ok b, s'') =>
          ((scale.join a.total b.total).map fun n => ⟨n, .product a.expansion scale b.expansion⟩,
            s'') := by
  rcases hl : l.eval fall usual sense s with ⟨e | a, s'⟩
  · simp only [eval, bind, ExceptT.bind, ExceptT.mk, ExceptT.bindCont, StateT.bind, hl]
    rfl
  · rcases hr : r.eval fall usual (sense.under scale) s' with ⟨e | b, s''⟩
    · simp only [eval, bind, ExceptT.bind, ExceptT.mk, ExceptT.bindCont, StateT.bind, hl, hr]
      rfl
    · simp only [eval, eval.liftExcept, bind, ExceptT.bind, ExceptT.mk, ExceptT.bindCont,
        StateT.bind, hl, hr]
      rcases scale.join a.total b.total with e | n
      · rfl
      · rfl

/-- What stands before a fault is evaluated first. -/
theorem eval_stopped (fall : Fall) (usual : Int) (sense : Sense) (t : Tree) (f : Fault)
    (s : Supply) :
    (stopped t f).eval fall usual sense s =
      match t.eval fall usual sense s with
      | (.ok _, s') => (.error f, s')
      | (.error e, s') => (.error e, s') := by
  rcases h : t.eval fall usual sense s with ⟨e | r, s'⟩
  · simp only [eval, bind, ExceptT.bind, ExceptT.mk, ExceptT.bindCont, StateT.bind, h]
    rfl
  · simp only [eval, bind, ExceptT.bind, ExceptT.mk, ExceptT.bindCont, StateT.bind, h]
    rfl

end Tree

end Tabletop.Dice
