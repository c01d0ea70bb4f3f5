import Tabletop.Text.Quoted

/-!
# Faults of dice expressions

Why a dice expression cannot be evaluated.  The wording of each fault is given in one place.

## Main definitions

* `Fault` — the causes.
* `Fault.message` — their wording.
-/

namespace Tabletop.Dice

open Text

/-- Why a dice expression has no value. -/
inductive Fault where
  /-- A character that starts no token. -/
  | unexpectedCharacter (c : Char) (expression : String)
  /-- A number, dice count or face count with more than nine digits. -/
  | longNumeral
  /-- There is no token at all. -/
  | empty
  /-- An operand or a closing parenthesis is missing at the end. -/
  | unexpectedEnd
  /-- An operator stands where an operand should. -/
  | unexpectedOperator (symbol : Char)
  /-- Something follows the complete expression. -/
  | unexpectedToken (text : String)
  /-- Something other than an operator or a closing parenthesis follows inside parentheses. -/
  | unbalanced
  /-- Too many open parentheses and signs. -/
  | tooDeep
  /-- A divisor is zero. -/
  | divisionByZero
  /-- A sum or a product is too large. -/
  | totalTooLarge
  /-- The number of dice in a term is out of bounds. -/
  | diceCount (count : Nat)
  /-- The number of faces of a die is out of bounds. -/
  | dieFaces (faces : Int)
  /-- No dice can be rolled at the moment. -/
  | offline (expression : String)
  deriving DecidableEq, Repr

/-- The most digits of a number, a dice count or a face count. -/
def maxDigits : Nat := 9

/-- The most dice in one term. -/
def maxDice : Nat := 100

/-- The most faces of a die. -/
def maxFaces : Nat := 1000

/-- The most parentheses and signs that may be open at once. -/
def maxDepth : Nat := 32

/-- The largest size of a sum or a product. -/
def maxTotal : Nat := Nat.pow 10 15

/-- The wording of a fault. -/
def Fault.message : Fault → String
  | unexpectedCharacter c e =>
      "Unexpected character " ++ quoted (String.singleton c) ++ " in " ++ quoted e
  | longNumeral => s!"Numbers in dice expressions are limited to {maxDigits} digits."
  | empty => "Empty dice expression."
  | unexpectedEnd => "Unexpected end of dice expression."
  | unexpectedOperator c => "Unexpected operator " ++ quoted (String.singleton c) ++ "."
  | unexpectedToken t => "Unexpected token " ++ quoted t ++ "."
  | unbalanced => "Unbalanced parentheses in dice expression."
  | tooDeep => s!"Dice expression nests deeper than {maxDepth} levels."
  | divisionByZero => "Division by zero in dice expression."
  | totalTooLarge => "Dice expression total is too large."
  | diceCount n => s!"Dice count must be 1-{maxDice}, got {n}."
  | dieFaces n => s!"Die faces must be 1-{maxFaces}, got {n}."
  | offline e => "evaluator offline: " ++ e

end Tabletop.Dice
