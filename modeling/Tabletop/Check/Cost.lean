import Tabletop.Error
import Tabletop.Text.Blank
import Tabletop.Text.Digit

/-!
# Sanity costs and growth formulas

A sanity cost says what a check may cost: `0/1d6` costs nothing on a success and a die on a
failure.  Its halves are losses, texts of digits, dice letters and signs.  A growth formula such as
`+1D3/1D10` says by which dice a skill grows.

## Main definitions

* `Cost`, `Cost.parse` — sanity costs.
* `readLoss` — one half of a cost.
* `Formula`, `Formula.parse`, `Formula.matches` — growth formulas.
-/

namespace Tabletop.Check

open Text

/-- What a sanity check costs. -/
structure Cost where
  /-- The loss on a success. -/
  success : String
  /-- The loss on a failure; on a fumble it is as large as it can be. -/
  failure : String
  deriving DecidableEq, Repr

/-- Whether a loss may hold the character. -/
def isLossChar (c : Char) : Bool := c.isDigit || c == 'd' || c == 'D' || c == '+' || c == '-'

/-- A loss without the blanks around it. -/
def readLoss (text : String) : Except Error String :=
  let cs := trimChars text.toList
  if !cs.isEmpty && cs.all isLossChar then .ok (String.ofList cs)
  else .error (.format (.loss text))

/-- The cost that a text gives; without a text there is none. -/
def Cost.parse (text : Option String) : Except Error Cost :=
  match splitWhere (· == '/') ((text.getD "").toList) with
  | [success, failure] => do
      let success ← readLoss (String.ofList success)
      let failure ← readLoss (String.ofList failure)
      .ok ⟨success, failure⟩
  | _ => .error (.format (.cost text))

/-- A cost as it is written. -/
def Cost.text (c : Cost) : String := c.success ++ "/" ++ c.failure

/-- The dice by which a skill grows. -/
structure Formula where
  /-- The growth. -/
  success : String
  /-- The other dice, which are kept but never rolled. -/
  failure : String
  deriving DecidableEq, Repr

/-- Whether the characters are dice with a number of faces: digits or none, a dice letter, and
digits. -/
def isDice (cs : List Char) : Bool :=
  match cs.dropWhile isDigit with
  | c :: faces => (c == 'd' || c == 'D') && !faces.isEmpty && faces.all isDigit
  | [] => false

/-- The formula that a trimmed text gives. -/
def Formula.ofChars? (cs : List Char) : Option Formula :=
  match cs with
  | '+' :: rest =>
    match splitWhere (· == '/') rest with
    | [success, failure] =>
      if isDice success && isDice failure then
        some ⟨String.ofList success, String.ofList failure⟩
      else none
    | _ => none
  | _ => none

/-- The formula that a text gives; without a text there is none. -/
def Formula.parse (text : Option String) : Except Error Formula :=
  match Formula.ofChars? (trimChars (text.getD "").toList) with
  | some f => .ok f
  | none => .error (.format (.formula text))

/-- Whether a text gives a formula. -/
def Formula.matches (text : String) : Bool := (Formula.ofChars? (trimChars text.toList)).isSome

/-- A formula as it is written. -/
def Formula.text (f : Formula) : String := "+" ++ f.success ++ "/" ++ f.failure

end Tabletop.Check
