import Tabletop.Check.Level
import Tabletop.Check.Reference
import Tabletop.Json.Value
import Tabletop.Number.Shortest
import Tabletop.Text.Digit

/-!
# Values from outside

A reference value or the number of a house rule may come from outside as any JSON value.  Truth
values count as zero and one.  A house rule may also be given by a number with an empty fraction.

## Main definitions

* `readReference` — refuses what is no reference value.
* `readRule` — the house rule that a value stands for.
-/

namespace Tabletop.Check

open Json Number

/-- How a truth value is shown. -/
def truthText (b : Bool) : String := if b then "True" else "False"

/-- A truth value as a number. -/
def truthNumber (b : Bool) : Int := if b then 1 else 0

/-- The kind of a value, as a message names it. -/
def kindName : Value → String
  | .null => "NoneType"
  | .bool _ => "bool"
  | .int _ => "int"
  | .float _ => "float"
  | .string _ => "str"
  | .array _ => "list"
  | .object _ => "dict"

/-- Refuses a value that is no reference value. -/
def readReference (allowZero : Bool) (v : Value) : Except Error Unit :=
  match v with
  | .int n => refuseBelow allowZero n (Text.intText n)
  | .bool b => refuseBelow allowZero (truthNumber b) (truthText b)
  | v => .error (.range (.referenceKind (kindName v)))

/-- How a value is shown in the message about house rules. -/
def shownRule : Value → String
  | .null => "None"
  | .bool b => truthText b
  | .int n => Text.intText n
  | .float x => x.text
  | .string s => s
  | .array items => kindName (.array items)
  | .object members => kindName (.object members)

/-- The number that a value stands for, if it stands for one. -/
def ruleNumber? : Value → Option Int
  | .int n => some n
  | .bool b => some (truthNumber b)
  | .float x => x.toInt?
  | _ => none

/-- The house rule that a value stands for. -/
def readRule (v : Value) : Except Error HouseRule :=
  match (ruleNumber? v).bind HouseRule.ofInt? with
  | some rule => .ok rule
  | none => .error (.range (.rule (shownRule v)))

end Tabletop.Check
