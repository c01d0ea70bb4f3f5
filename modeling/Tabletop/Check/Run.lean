import Tabletop.Attribute.Alias
import Tabletop.Check.Level
import Tabletop.Check.Reference
import Tabletop.Check.Request
import Tabletop.Game

/-!
# Running checks

A check goes through five stages: it finds the reference, rolls a hundred-sided die, classifies
the roll, rolls what is at stake, and writes the new value back.  Only a value that came from the
card is written back.

* A sanity check loses the success half of its cost on a success and the failure half on a failure;
  a fumble loses the most that the failure half can be.  Sanity does not fall below zero.
* A growth check succeeds when the roll is above the skill.  Then the skill grows by a ten-sided
  die, or by a formula.

## Main definitions

* `Variety` — the two varieties of checks.
* `Outcome` — the account of a check.
* `Setting` — what checks are run with.
* `run` — running a check.
-/

namespace Tabletop.Check

open Dice

/-- The varieties of checks. -/
inductive Variety where
  /-- Sanity is lost. -/
  | sanity
  /-- A skill grows. -/
  | growth
  deriving DecidableEq, Repr

/-- The account of a check. -/
structure Outcome where
  /-- What the hundred-sided die showed. -/
  roll : Int
  /-- The value that was rolled against. -/
  reference : Int
  /-- The level of the roll. -/
  level : Level
  /-- What was lost or gained. -/
  magnitude : Int
  /-- The value after the check. -/
  newValue : Int
  /-- Whether the new value was written to the card. -/
  committed : Bool
  /-- How the roll came about. -/
  rollDetail : String
  /-- How the loss or gain came about. -/
  magnitudeDetail : String
  deriving DecidableEq, Repr

/-- What checks are run with. -/
structure Setting where
  /-- What rolls the dice. -/
  source : Source
  /-- The table of spellings. -/
  aliases : AliasTable
  /-- The house rule. -/
  rule : HouseRule
  /-- The number of attributes that a card may hold. -/
  cap : Int

/-- Whether a variety can roll against zero. -/
def Variety.allowsZero : Variety → Bool
  | sanity => false
  | growth => true

/-- A value to roll against, unless it is out of bounds. -/
def Variety.check (variety : Variety) (n : Int) : Except Error Int :=
  (refuseBelow variety.allowsZero n (Text.intText n)).map fun _ => n

/-- The value to roll against, and whether it came from the card. -/
def findReference (variety : Variety) (request : Request) (name : String) (store : CardStore) :
    Except Error (Int × Bool) :=
  match request.explicit with
  | some n => (variety.check n).map fun r => (r, false)
  | none =>
    match store.get? request.card name with
    | some n => (variety.check n).map fun r => (r, true)
    | none => .error (.missingAttribute name)

/-- The level of a roll. -/
def Variety.classify (variety : Variety) (rule : HouseRule) (roll reference : Int) : Level :=
  match variety with
  | sanity => Check.classify roll reference rule
  | growth => if reference < roll then .success else .fail

/-- Rolls what is at stake. -/
def rollStake (source : Source) (expression : String) (usual : Int) : Command (Int × String) := do
  let r ← Command.ofRoll (fun f => .format (.unrollable expression f))
    (source.roll expression usual)
  pure (r.total, r.detail)

/-- What a sanity check of a level costs. -/
def sanityLoss (source : Source) (cost : Cost) (level : Level) : Command (Int × String) :=
  match level with
  | .criticalFail =>
    let worst := source.largest cost.failure 100
    if worst = -1 then throw (.format (.noLargest cost.failure))
    else pure (worst, "Max\x7b" ++ cost.failure ++ "\x7d=" ++ Text.intText worst)
  | .fail => rollStake source cost.failure 100
  | _ => rollStake source cost.success 100

/-- What a growth check of a level gains. -/
def growthGain (source : Source) (formula : Option Formula) (level : Level) :
    Command (Int × String) :=
  if level.isSuccess then
    match formula with
    | some f => rollStake source f.success 100
    | none => rollStake source "1d10" 10
  else pure (0, "")

/-- The formula of a request, if it has one. -/
def Purpose.formula? : Purpose → Option Formula
  | growth formula => formula
  | _ => none

/-- The cost of a request, if it has one. -/
def Purpose.cost? : Purpose → Option Cost
  | sanity cost => cost
  | _ => none

/-- A variety together with what its stake is rolled from. -/
inductive Stake where
  /-- The cost of a sanity check. -/
  | loss (cost : Cost)
  /-- The formula of a growth check, if there is one. -/
  | gain (formula : Option Formula)
  deriving DecidableEq, Repr

/-- The stake of a request; a sanity check needs a cost. -/
def Variety.stake (variety : Variety) (request : Request) : Except Error Stake :=
  match variety with
  | sanity =>
    match request.purpose.cost? with
    | some cost => .ok (.loss cost)
    | none => .error (.format .missingCost)
  | growth => .ok (.gain request.purpose.formula?)

/-- Rolls what is at stake in a check of a level. -/
def Stake.roll (source : Source) (level : Level) : Stake → Command (Int × String)
  | loss cost => sanityLoss source cost level
  | gain formula => growthGain source formula level

/-- The value after a check. -/
def Variety.newValue (variety : Variety) (reference magnitude : Int) : Int :=
  match variety with
  | sanity => max 0 (reference - magnitude)
  | growth => reference + magnitude

/-- Whether a value from the card is written back. -/
def Variety.commits (variety : Variety) (level : Level) (magnitude : Int) : Bool :=
  match variety with
  | sanity => magnitude != 0
  | growth => level.isSuccess

/-- The roll of the hundred-sided die and of the stake: the roll, its level, and the stake. -/
def rollCheck (setting : Setting) (variety : Variety) (stake : Stake) (reference : Int) :
    Command (Roll × Level × Int × String) := do
  let primary ← Command.ofRoll .dice (setting.source.roll "1d100" 100)
  let level := variety.classify setting.rule primary.total reference
  let (magnitude, detail) ← stake.roll setting.source level
  pure (primary, level, magnitude, detail)

/-- Writes a value back if it is to be written, and says whether it was. -/
def commit (setting : Setting) (request : Request) (name : String) (wanted : Bool) (value : Int)
    (store : CardStore) : Bool × CardStore :=
  if wanted then store.set request.card name value setting.cap else (false, store)

/-- Runs a check. -/
def run (setting : Setting) (variety : Variety) (request : Request) : Play Outcome := do
  let stake ← ExceptT.mk (pure (variety.stake request))
  -- The reference is found before any die is rolled.
  let name := setting.aliases.normalize request.name
  let game ← get
  let (reference, fromCard) ← ExceptT.mk (pure (findReference variety request name game.cards))
  let (primary, level, magnitude, detail) ←
    Play.ofCommand (rollCheck setting variety stake reference)
  -- All dice have been rolled when the card is written to.
  let value := variety.newValue reference magnitude
  let committed ← Play.onCards
    (commit setting request name (fromCard && variety.commits level magnitude) value)
  pure ⟨primary.total, reference, level, magnitude, value, committed, primary.detail, detail⟩

end Tabletop.Check
