import Tabletop.Attribute.Reader
import Tabletop.Game

/-!
# Applying directives

The operations of a directive are carried out on one card.  All amounts are rolled first, so that
an amount that cannot be rolled leaves every card as it was.  Then the values are written one after
another, and a report says for each operation what it found and what it wrote.  Adding and
subtracting stop at zero.

## Main definitions

* `Change`, `Report` — the account of one operation and of a directive.
* `rollAmount` — the amount of an operation as a number.
* `carryOut` — the writing of amounts that have been rolled.
* `applyTo`, `applyText` — applying operations to a card, and a text to its card.

## Main results

* `carryOut_append` — values are written one after another.
-/

namespace Tabletop.Attribute

open Dice

/-- The account of one operation. -/
structure Change where
  /-- The operation. -/
  operation : Operation
  /-- Its amount as a number. -/
  amount : Int
  /-- The value before, if there was one. -/
  previous : Option Int
  /-- The value that was to be written. -/
  newValue : Int
  /-- Whether it was written. -/
  stored : Bool
  /-- How the amount came about. -/
  detail : String
  deriving DecidableEq, Repr

/-- The account of a directive. -/
structure Report where
  /-- The card that was written to. -/
  card : String
  /-- The account of each operation. -/
  changes : List Change
  deriving DecidableEq, Repr

/-- How many operations were carried out. -/
def Report.stored (r : Report) : Nat := r.changes.countP Change.stored

/-- The number of faces of a die in an amount that gives none. -/
def amountFaces : Int := 100

/-- An operation whose amount has been rolled. -/
structure Rolled where
  /-- The operation. -/
  operation : Operation
  /-- Its amount as a number. -/
  amount : Int
  /-- How the amount came about. -/
  detail : String
  deriving DecidableEq, Repr

/-- Rolls the amount of an operation. -/
def rollAmount (source : Source) (op : Operation) : Command Rolled :=
  match op.amount with
  | .literal n => pure ⟨op, n, Text.intText n⟩
  | .expression e => do
      let r ← Command.ofRoll (fun f => .format (.unrollable e f)) (source.roll e amountFaces)
      pure ⟨op, r.total, r.detail⟩

/-- Rolls the amounts of operations in order. -/
def rollAmounts (source : Source) : List Operation → Command (List Rolled)
  | [] => pure []
  | op :: ops => do
      let r ← rollAmount source op
      let rs ← rollAmounts source ops
      pure (r :: rs)

/-- The value after an operation. -/
def Kind.result (kind : Kind) (previous : Option Int) (amount : Int) : Int :=
  match kind with
  | .set => amount
  | .add => max 0 (previous.getD 0 + amount)
  | .subtract => max 0 (previous.getD 0 - amount)

/-- Writes the value of one operation. -/
def carryOutOne (card : String) (cap : Int) (r : Rolled) (store : CardStore) :
    Change × CardStore :=
  let previous := store.get? card r.operation.name
  let value := r.operation.kind.result previous r.amount
  let (stored, store') := store.set card r.operation.name value cap
  (⟨r.operation, r.amount, previous, value, stored, r.detail⟩, store')

/-- Writes the values of operations in order. -/
def carryOut (card : String) (cap : Int) : List Rolled → CardStore → List Change × CardStore
  | [], store => ([], store)
  | r :: rs, store =>
    let (change, store') := carryOutOne card cap r store
    let (changes, store'') := carryOut card cap rs store'
    (change :: changes, store'')

/-- Writing no values gives an empty report. -/
@[simp] theorem carryOut_nil (card : String) (cap : Int) (store : CardStore) :
    carryOut card cap [] store = ([], store) := rfl

/-- The first value is written before the others. -/
theorem carryOut_cons (card : String) (cap : Int) (r : Rolled) (rs : List Rolled)
    (store : CardStore) :
    carryOut card cap (r :: rs) store =
      ((carryOutOne card cap r store).1 ::
          (carryOut card cap rs (carryOutOne card cap r store).2).1,
        (carryOut card cap rs (carryOutOne card cap r store).2).2) := rfl

/-- The values of two lists are written one list after the other. -/
theorem carryOut_append (card : String) (cap : Int) (rs rs' : List Rolled) (store : CardStore) :
    carryOut card cap (rs ++ rs') store =
      ((carryOut card cap rs store).1 ++ (carryOut card cap rs' (carryOut card cap rs store).2).1,
        (carryOut card cap rs' (carryOut card cap rs store).2).2) := by
  induction rs generalizing store with
  | nil => rfl
  | cons r rs ih => rw [List.cons_append, carryOut_cons, ih, carryOut_cons, List.cons_append]

/-- Applies operations to a card that may hold `cap` attributes. -/
def applyTo (source : Source) (cap : Int) (card : String) (ops : List Operation) :
    Play Report := do
  -- Nothing is written before the last amount has been rolled.
  let rolls ← Play.ofCommand (rollAmounts source ops)
  let changes ← Play.onCards (carryOut card cap rolls)
  pure ⟨card, changes⟩

/-- Applies the directive of a text to the card that it names, or else to the given card. -/
def applyText (source : Source) (aliases : AliasTable) (cap : Int) (card text : String) :
    Play Report :=
  let directive := readDirective aliases text
  if directive.operations.isEmpty then throw (.format (.noDirective text))
  else applyTo source cap (directive.card.getD card) directive.operations

end Tabletop.Attribute
