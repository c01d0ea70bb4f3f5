import Tabletop.Dice.Eval

/-!
# Rolling dice expressions

A roll has a total and a detail.  The detail shows the expression with all counts and faces written
out, then what the dice showed, then the total, joined by equals signs; what would repeat another
part is left out.

Whatever rolls dice asks a `Source` for it.  The usual source evaluates expressions; another one is
out of order and refuses every expression.

## Main definitions

* `Roll` — a total with its detail.
* `roll`, `largest` — a roll of an expression, and the largest total it can have.
* `Source` — what can roll expressions; `Source.evaluator` and `Source.offline`.
-/

namespace Tabletop.Dice

/-- The result of rolling an expression. -/
structure Roll where
  /-- The value of the expression. -/
  total : Int
  /-- How the value came about. -/
  detail : String
  deriving DecidableEq, Repr

/-- The parts of a detail: the shape, the expansion and the total, without repetitions. -/
def detailParts (shape expansion total : String) : List String :=
  [shape] ++ (if expansion = shape ∨ expansion = total then [] else [expansion]) ++
    (if total = shape then [] else [total])

/-- The shape, the expansion and the total, without repetitions, joined by equals signs. -/
def detail (shape expansion total : String) : String :=
  "=".intercalate (detailParts shape expansion total)

/-- The reading of an expression: its tree evaluated, with dice falling in the given way. -/
def read (fall : Fall) (expression : String) (usual : Int) : Throwing Fault (Tree × Reading) :=
  match parseText expression with
  | .error f => throw f
  | .ok t => do
      let r ← t.eval fall usual .same
      pure (t, r)

/-- Rolls an expression; `usual` is the number of faces where none is given. -/
def roll (expression : String) (usual : Int) : Throwing Fault Roll := do
  let (t, r) ← read rolled expression usual
  pure ⟨r.total, detail (t.settle usual).text r.expansion.text (Text.intText r.total)⟩

/-- The largest total of an expression, if it has one at all. -/
def largest? (expression : String) (usual : Int) : Except Fault Int :=
  ((read highest expression usual).run ⟨fun _ => 1, 0⟩).1.map fun p => p.2.total

/-- The largest total of an expression, or minus one if there is none. -/
def largest (expression : String) (usual : Int) : Int :=
  match largest? expression usual with
  | .ok n => n
  | .error _ => -1

/-- What rolls dice expressions. -/
structure Source where
  /-- Rolls an expression; the number is that of the usual faces. -/
  roll : String → Int → Throwing Fault Roll
  /-- The largest total of an expression, or minus one if there is none. -/
  largest : String → Int → Int

/-- The source that evaluates expressions. -/
def Source.evaluator : Source := ⟨Dice.roll, Dice.largest⟩

/-- The source that is out of order. -/
def Source.offline : Source := ⟨fun expression _ => throw (.offline expression), fun _ _ => -1⟩

end Tabletop.Dice
