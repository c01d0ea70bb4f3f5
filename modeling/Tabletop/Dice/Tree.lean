import Tabletop.Dice.Token

/-!
# Trees of dice expressions

The structure of a dice expression.  An expression that breaks off has a tree too: the place where
reading stopped holds the fault.  Evaluation goes from left to right, so it meets all that stands
before a fault first, and a tree says which of several faults comes to light.

## Main definitions

* `Tree` — the trees, with the faults in their places.
* `Tree.isComplete` — there is no fault in the tree.
* `Tree.chars` — the tree written out.
* `Tree.settle` — the tree with all counts and faces written out.

## Main results

* `Tree.settle_settle` — a tree without gaps does not depend on the usual number of faces.
-/

namespace Tabletop.Dice

open Text

/-- The structure of a dice expression. -/
inductive Tree where
  /-- A number, with its digits as they were written. -/
  | number (digits : List Char)
  /-- A number of dice of the same kind; one die, or the usual die, when it is left out. -/
  | dice (count faces : Option Nat)
  /-- A factor with a sign before it. -/
  | signed (s : Sign) (t : Tree)
  /-- An expression in parentheses. -/
  | group (t : Tree)
  /-- The sum or difference of two terms. -/
  | sum (left : Tree) (s : Sign) (right : Tree)
  /-- The product or quotient of two factors. -/
  | product (left : Tree) (s : Scale) (right : Tree)
  /-- Reading stopped here. -/
  | fault (f : Fault)
  /-- Reading stopped after this expression. -/
  | stopped (t : Tree) (f : Fault)
  deriving DecidableEq, Repr

namespace Tree

/-- There is no fault in the tree. -/
def isComplete : Tree → Bool
  | number _ => true
  | dice _ _ => true
  | signed _ t => t.isComplete
  | group t => t.isComplete
  | sum l _ r => l.isComplete && r.isComplete
  | product l _ r => l.isComplete && r.isComplete
  | fault _ => false
  | stopped _ _ => false

/-- The digits of a number that may be left out. -/
def optionalDigits (n : Option Nat) : List Char := (n.map digitsOf).getD []

/-- The tree written out, without blanks. -/
def chars : Tree → List Char
  | number ds => ds
  | dice count faces => optionalDigits count ++ 'D' :: optionalDigits faces
  | signed s t => s.symbol :: t.chars
  | group t => '(' :: t.chars ++ [')']
  | sum l s r => l.chars ++ s.symbol :: r.chars
  | product l s r => l.chars ++ s.symbol :: r.chars
  | fault _ => []
  | stopped t _ => t.chars

/-- The tree written out, without blanks. -/
def text (t : Tree) : String := String.ofList t.chars

/-- The faces of a die, `usual` if they are left out. -/
def facesOr (usual : Int) (faces : Option Nat) : Int := (faces.map Int.ofNat).getD usual

/-- The tree in which no count and no number of faces is left out. -/
def settle (usual : Int) : Tree → Tree
  | number ds => number ds
  | dice count faces => dice (some (count.getD 1)) (some (facesOr usual faces).toNat)
  | signed s t => signed s (t.settle usual)
  | group t => group (t.settle usual)
  | sum l s r => sum (l.settle usual) s (r.settle usual)
  | product l s r => product (l.settle usual) s (r.settle usual)
  | fault f => fault f
  | stopped t f => stopped (t.settle usual) f

/-- The sum of numbers, from left to right, with further numbers to be added to a tree. -/
def plusNumbers (t : Tree) : List Nat → Tree
  | [] => t
  | n :: ns => plusNumbers (sum t .plus (number (digitsOf n))) ns

/-- What dice showed: the number for a single die, else the sum of all in parentheses. -/
def ofValues : List Nat → Tree
  | [] => number (digitsOf 0)
  | [n] => number (digitsOf n)
  | n :: ns => group (plusNumbers (number (digitsOf n)) ns)

/-! ### Trees without gaps -/

/-- Faces that are given do not depend on the usual ones. -/
@[simp] theorem facesOr_some (usual : Int) (n : Nat) : facesOr usual (some n) = n := rfl

/-- Faces that are left out are the usual ones. -/
@[simp] theorem facesOr_none (usual : Int) : facesOr usual none = usual := rfl

/-- A tree without gaps does not depend on the usual number of faces. -/
theorem settle_settle (usual usual' : Int) (t : Tree) :
    (t.settle usual).settle usual' = t.settle usual := by
  induction t with
  | number ds => rfl
  | dice count faces => rfl
  | signed s t ih => rw [settle, settle, ih]
  | group t ih => rw [settle, settle, ih]
  | sum l s r ihl ihr => rw [settle, settle, ihl, ihr]
  | product l s r ihl ihr => rw [settle, settle, ihl, ihr]
  | fault f => rfl
  | stopped t f ih => rw [settle, settle, ih]

/-- Filling in what is left out brings no fault and takes none away. -/
@[simp] theorem isComplete_settle (usual : Int) (t : Tree) :
    (t.settle usual).isComplete = t.isComplete := by
  induction t with
  | number ds => rfl
  | dice count faces => rfl
  | signed s t ih => exact ih
  | group t ih => exact ih
  | sum l s r ihl ihr => rw [settle, isComplete, isComplete, ihl, ihr]
  | product l s r ihl ihr => rw [settle, isComplete, isComplete, ihl, ihr]
  | fault f => rfl
  | stopped t f ih => rfl

end Tree

end Tabletop.Dice
