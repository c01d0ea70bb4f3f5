import Tabletop.Dice.Fault

/-!
# Errors of commands

Why a command is refused.  The kinds tell a user what to mend: the form of a text, a number out
of bounds, an attribute that is not on the card, a name that nobody knows, an empty turn order, or
dice that cannot be rolled.  The wording of each error is given in one place.

## Main definitions

* `FormatFault`, `RangeFault` — causes of the two kinds with many causes.
* `Error` — the kinds of errors.
* `Error.message` — their wording.
-/

namespace Tabletop

open Text

/-- What is wrong with the form of a text. -/
inductive FormatFault where
  /-- A directive without any operation. -/
  | noDirective (text : String)
  /-- An amount that cannot be rolled. -/
  | unrollable (expression : String) (cause : Dice.Fault)
  /-- A loss without a largest total. -/
  | noLargest (expression : String)
  /-- A pool text without characters. -/
  | emptyPool
  /-- A pool text that cannot be evaluated. -/
  | poolUnrollable (text : String) (cause : Dice.Fault)
  /-- A sanity cost that has not two halves. -/
  | cost (text : Option String)
  /-- A half of a sanity cost with other characters than dice, digits and signs. -/
  | loss (text : String)
  /-- A growth formula of another form. -/
  | formula (text : Option String)
  /-- A sanity check without a cost. -/
  | missingCost
  /-- A growth check without the name of a skill. -/
  | missingSkill
  /-- A name in the turn order that is blank. -/
  | blankName
  /-- A stored turn order with so many faults. -/
  | snapshot (faults : Nat)
  /-- A stored turn order in which a name occurs twice. -/
  | duplicateName (name : String)
  deriving DecidableEq, Repr

/-- Which number is out of bounds. -/
inductive RangeFault where
  /-- A number in a pool text has too many digits. -/
  | poolText (text : String)
  /-- The number of dice in a pool. -/
  | poolCount (count : Int)
  /-- The threshold from which the dice of a pool explode. -/
  | poolThreshold (threshold : Int)
  /-- A value to roll against; it is given as it is shown. -/
  | reference (shown : String)
  /-- Something other than a number to roll against. -/
  | referenceKind (kind : String)
  /-- The number of a house rule; it is given as it is shown. -/
  | rule (shown : String)
  deriving DecidableEq, Repr

/-- Why a command is refused. -/
inductive Error where
  /-- A text has not the right form. -/
  | format (fault : FormatFault)
  /-- A number is out of bounds. -/
  | range (fault : RangeFault)
  /-- The attribute is not on the card. -/
  | missingAttribute (name : String)
  /-- Some letters are left when the attributes have been replaced. -/
  | unknownAttribute (residual : String)
  /-- The turn order has no entry. -/
  | emptyOrder
  /-- The dice cannot be rolled. -/
  | dice (fault : Dice.Fault)
  deriving DecidableEq, Repr

/-- The least number of dice at the start of a pool. -/
def minPoolDice : Nat := 1

/-- The largest number of dice in a pool, at its start and with those that were added. -/
def maxPoolDice : Nat := 100

/-- The least threshold from which dice explode. -/
def minThreshold : Nat := 2

/-- The largest threshold from which dice explode. -/
def maxThreshold : Nat := 10

/-- The wording of a fault in the form of a text. -/
def FormatFault.message : FormatFault → String
  | noDirective text => "No attribute directives recognised in " ++ quoted text ++ "."
  | unrollable e cause => "Cannot evaluate " ++ quoted e ++ ": " ++ cause.message
  | noLargest e => "Cannot evaluate " ++ quoted e ++ "."
  | emptyPool => "Dice pool expression is empty; expected e.g. 10a8."
  | poolUnrollable text cause =>
      "Cannot evaluate dice pool expression " ++ quoted text ++ ": " ++ cause.message
  | cost text =>
      "Sanity cost " ++ quotedOrNone text ++ " must look like success/failure, e.g. 0/1d6."
  | loss text =>
      "Loss expression " ++ quoted text ++
        " may only contain digits, \x27d\x27, \x27+\x27 and \x27-\x27."
  | formula text => "Growth formula " ++ quotedOrNone text ++ " must look like +1D3/1D10."
  | missingCost => "Sanity check needs a loss expression, e.g. 0/1d6."
  | missingSkill => "Growth check needs a skill name."
  | blankName => "Initiative entry name cannot be empty."
  | snapshot n => s!"Invalid initiative state: {n} error(s)."
  | duplicateName name => "Invalid initiative state: duplicate name " ++ quoted name ++ "."

/-- The wording of a number out of bounds. -/
def RangeFault.message : RangeFault → String
  | poolText text => "Dice pool " ++ quoted text ++ " is out of range."
  | poolCount n => s!"Dice count must be between {minPoolDice} and {maxPoolDice}, got {n}."
  | poolThreshold n =>
      s!"Explode threshold must be between {minThreshold} and {maxThreshold}, got {n}."
  | reference shown => "Reference value must be positive, got " ++ shown ++ "."
  | referenceKind kind => "Reference value must be an integer, got " ++ kind ++ "."
  | rule shown => "Check rule must be between 0 and 5, got " ++ shown ++ "."

/-- The wording of an error. -/
def Error.message : Error → String
  | format f => f.message
  | range f => f.message
  | missingAttribute name => "Attribute " ++ quoted name ++ " is not set on this card."
  | unknownAttribute residual =>
      "Expression contains unknown attributes: " ++ quoted residual
  | emptyOrder => "Initiative list is empty."
  | dice f => f.message

end Tabletop
