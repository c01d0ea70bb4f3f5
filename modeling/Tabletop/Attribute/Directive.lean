import Tabletop.Text.Digit

/-!
# Attribute directives

A directive says what is to happen to the attributes of a card: each operation sets an attribute,
adds to it or subtracts from it.  The amount is a number, or an expression that is rolled when the
operation is carried out.

## Main definitions

* `Operation` — one change of an attribute, with its `Kind` and `Amount`.
* `Directive` — the operations of a text, and the card it names.
-/

namespace Tabletop.Attribute

/-- How an operation changes an attribute. -/
inductive Kind where
  /-- The amount becomes the value. -/
  | set
  /-- The amount is added. -/
  | add
  /-- The amount is subtracted. -/
  | subtract
  deriving DecidableEq, Repr

/-- By how much an attribute is changed. -/
inductive Amount where
  /-- A number. -/
  | literal (n : Int)
  /-- An expression that is rolled when it is needed. -/
  | expression (text : String)
  deriving DecidableEq, Repr

/-- One change of an attribute. -/
structure Operation where
  /-- The canonical name of the attribute. -/
  name : String
  /-- How it is changed. -/
  kind : Kind
  /-- By how much. -/
  amount : Amount
  deriving DecidableEq, Repr

/-- What a text says about the attributes of a card. -/
structure Directive where
  /-- The card that the text names, if it names one. -/
  card : Option String
  /-- The operations in the order of the text. -/
  operations : List Operation
  deriving DecidableEq, Repr

end Tabletop.Attribute
