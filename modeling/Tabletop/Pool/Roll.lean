import Tabletop.Command
import Tabletop.Pool.Spec
import Tabletop.Pool.Substitution
import Tabletop.Text.Letter

/-!
# Rolling dice pools

The text of a pool is either of the form `10a8`, a number of dice and a threshold, or an expression
over the attributes of a card, which gives the number of dice with the usual threshold.  When the
attributes have been replaced, the only letter that may be left is the one that marks dice.

The dice are rolled one by one.  Each die that reaches the threshold adds one more, as long as the
pool has fewer than a hundred.

## Main definitions

* `shortForm?` — the two numerals of the short form.
* `readSpec` — the pool that a text describes.
* `rollFrom`, `rollPool` — rolling a pool.
* `resolve` — rolling the pool that a text describes.
-/

namespace Tabletop.Pool

open Text

/-- The numerals of a text such as `10a8`. -/
def shortForm? (cs : List Char) : Option (List Char × List Char) :=
  let count := cs.takeWhile isDigit
  match cs.dropWhile isDigit with
  | c :: threshold =>
    if !count.isEmpty && (c == 'a' || c == 'A') && !threshold.isEmpty && threshold.all isDigit then
      some (count, threshold)
    else none
  | [] => none

/-- Whether a letter is left that does not mark dice. -/
def hasForeignLetter (cs : List Char) : Bool :=
  cs.any fun c => isLetter c && !Dice.isDiceLetter c

/-- The pool of a short form. -/
def ofShortForm (compact : List Char) (count threshold : List Char) : Except Error Spec :=
  if count.length ≤ Dice.maxDigits ∧ threshold.length ≤ Dice.maxDigits then
    Spec.make (numeralValue count) (numeralValue threshold)
  else .error (.range (.poolText (String.ofList compact)))

/-- The pool that a text describes, given the attributes of a card. -/
def readSpec (source : Dice.Source) (aliases : AliasTable) (attributes : List (String × Int))
    (text : String) : Command Spec :=
  let compact := dropBlanks text.toList
  if compact.isEmpty then throw (.format .emptyPool)
  else
    -- The short form never looks at the card.
    match shortForm? compact with
    | some (count, threshold) => Command.ofExcept (ofShortForm compact count threshold)
    | none => do
      let residual := substitute aliases attributes (String.ofList compact)
      if hasForeignLetter residual.toList then throw (.unknownAttribute residual)
      else
        let result ← Command.ofRoll (fun f => .format (.poolUnrollable text f))
          (source.roll residual poolFaces)
        Command.ofExcept (Spec.make result.total successFrom)

/-- The number of dice in a pool of `total` after a die has shown a value. -/
def growBy (threshold total : Nat) (value : Int) : Nat :=
  if (threshold : Int) ≤ value ∧ total < maxPoolDice then total + 1 else total

/-- What the dice from the `done`-th on show, in a pool that has `total` dice so far. -/
def rollFrom (die : Command Int) (threshold total done : Nat) (bound : total ≤ maxPoolDice) :
    Command (List Int) :=
  if done < total then do
    let value ← die
    let rest ← rollFrom die threshold (growBy threshold total value) (done + 1)
      (by unfold growBy; split <;> omega)
    pure (value :: rest)
  else pure []
termination_by maxPoolDice - done

/-- Nothing is rolled when all dice of a pool have been rolled. -/
theorem rollFrom_of_le (die : Command Int) {threshold total done : Nat}
    (bound : total ≤ maxPoolDice) (h : total ≤ done) :
    rollFrom die threshold total done bound = pure [] := by
  rw [rollFrom, if_neg (Nat.not_lt.2 h)]

/-- A pool never shrinks. -/
theorem le_growBy (threshold total : Nat) (value : Int) :
    total ≤ growBy threshold total value := by
  unfold growBy
  split
  · exact Nat.le_succ total
  · exact Nat.le_refl total

/-- A die of a pool. -/
def poolDie (source : Dice.Source) : Command Int :=
  (fun r => r.total) <$> Command.ofRoll .dice (source.roll "1d10" poolFaces)

/-- A die of a pool shows the total of a roll, or fails as the roll does. -/
theorem poolDie_apply (source : Dice.Source) (supply : Dice.Supply) :
    poolDie source supply =
      (match (source.roll "1d10" 10 supply).1 with
        | .ok r => .ok r.total
        | .error f => .error (.dice f),
      (source.roll "1d10" 10 supply).2) := by
  have hfaces : (poolFaces : Int) = 10 := rfl
  rw [poolDie, Effect.map_apply, Command.ofRoll, hfaces]
  rcases source.roll "1d10" 10 supply with ⟨f | r, supply'⟩
  · rfl
  · rfl

/-- Rolls a pool. -/
def rollPool (source : Dice.Source) (spec : Spec) : Command Outcome := do
  let draws ← rollFrom (poolDie source) spec.threshold spec.count 0 spec.count_bounds.2
  pure ⟨spec, draws, draws.countP fun v => decide ((successFrom : Int) ≤ v)⟩

/-- Rolls the pool that a text describes. -/
def resolve (source : Dice.Source) (aliases : AliasTable) (attributes : List (String × Int))
    (text : String) : Command Outcome := do
  let spec ← readSpec source aliases attributes text
  rollPool source spec

end Tabletop.Pool
