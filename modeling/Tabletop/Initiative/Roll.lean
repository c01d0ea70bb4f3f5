import Tabletop.Check.Request
import Tabletop.Command

/-!
# Initiative rolls

The words of an initiative command give a value and a name.  The first word may be a modifier of
a twenty-sided die, a value, or an expression to be rolled; the words after it are the name.
Otherwise all the words are the name and the die is rolled without modifier.

## Main definitions

* `InitiativeRoll` — a name with its value.
* `readWords` — the expression and the name that words give.
* `rollInitiative` — rolling the value.
-/

namespace Tabletop.Initiative

open Text

/-- A name with an initiative value. -/
structure InitiativeRoll where
  /-- The name. -/
  name : String
  /-- The value. -/
  value : Int
  /-- How the value came about. -/
  detail : String
  deriving DecidableEq, Repr

/-- The number of faces of an initiative die. -/
def initiativeFaces : Int := 20

/-- The usual expression. -/
def initiativeDie : String := "1d20"

/-- Whether an expression may hold the character. -/
def isExpressionChar (c : Char) : Bool :=
  c.isDigit || Dice.isDiceLetter c || (Dice.Token.ofChar? c).isSome || isBlank c

/-- Whether a text is an integer, perhaps followed by a line feed. -/
def isInteger (s : String) : Bool := (Check.integerLine? s.toList).isSome

/-- Whether a text starts with a sign. -/
def hasSign (s : String) : Bool :=
  match s.toList with
  | c :: _ => c == '+' || c == '-'
  | [] => false

/-- Whether a text is made of the characters of expressions. -/
def isExpression (s : String) : Bool := !s.isEmpty && s.toList.all isExpressionChar

/-- The expression and the name that the words of a command give. -/
def readWords (words : List String) (usual : String) : String × String :=
  match words with
  | [] => (initiativeDie, usual)
  | first :: rest =>
    let name := if rest.isEmpty then usual else " ".intercalate rest
    if isInteger first then (if hasSign first then initiativeDie ++ first else first, name)
    else if isExpression first then (first, name)
    else (initiativeDie, " ".intercalate words)

/-- The value of an expression that is a numeral. -/
def numeral? (expression : String) : Option Nat :=
  let cs := expression.toList
  if Attribute.isNumeral cs && cs.all isDigit then some (numeralValue cs) else none

/-- Rolls the initiative that the words of a command ask for. -/
def rollInitiative (source : Dice.Source) (words : List String) (usual : String) :
    Command InitiativeRoll :=
  let (expression, name) := readWords words usual
  match numeral? expression with
  | some n => pure ⟨name, n, intText n⟩
  | none => do
      let r ← Command.ofRoll .dice (source.roll expression initiativeFaces)
      pure ⟨name, r.total, r.detail⟩

end Tabletop.Initiative
