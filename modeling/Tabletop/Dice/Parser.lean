import Tabletop.Dice.Tree

/-!
# Reading dice expressions

The grammar has three layers.  An expression is a sum of terms, a term a product of factors, and a
factor a number, dice, a factor with a sign before it, or an expression in parentheses; sums and
products group from the left.

The tokens are read once, from left to right.  What stands open around the place of reading is
a stack of frames, the innermost first.  A finished factor closes the signs before it and the
product it ends; the end of a term closes the sum it ends.

## Main definitions

* `Frame`, `fill` — what is open around a place, and the tree with the place filled.
* `readOperand`, `readOperator` — the two states of reading.
* `parse` — the tree of a list of tokens.

## Main results

* `fill_closeFactor`, `fill_closeTerm` — closing frames does not change the tree around a place.

Reading never fails: where the grammar is left, the tree holds the fault.
-/

namespace Tabletop.Dice

/-- Something open around the place of reading. -/
inductive Frame where
  /-- The right term of a sum or difference. -/
  | sum (left : Tree) (s : Sign)
  /-- The right factor of a product or quotient. -/
  | product (left : Tree) (s : Scale)
  /-- The factor behind a sign. -/
  | signed (s : Sign)
  /-- The expression behind an opening parenthesis. -/
  | group
  deriving DecidableEq, Repr

/-- The frame with its place filled. -/
def Frame.fill : Frame → Tree → Tree
  | sum l s, t => .sum l s t
  | product l s, t => .product l s t
  | signed s, t => .signed s t
  | group, t => .group t

/-- Whether the frame counts as a level of nesting. -/
def Frame.isLevel : Frame → Bool
  | signed _ => true
  | group => true
  | _ => false

/-- The whole tree around a place, the innermost frame being the first. -/
def fill : List Frame → Tree → Tree
  | [], t => t
  | f :: frames, t => fill frames (f.fill t)

/-- The number of open signs and parentheses. -/
def depth (frames : List Frame) : Nat := frames.countP Frame.isLevel

/-- Nothing is open at the start. -/
@[simp] theorem depth_nil : depth [] = 0 := rfl

/-- A level makes the depth larger by one. -/
theorem depth_cons (f : Frame) (frames : List Frame) :
    depth (f :: frames) = depth frames + if f.isLevel then 1 else 0 := by
  rw [depth, List.countP_cons]
  rfl

/-- A finished factor closes the signs before it and the product it ends. -/
def closeFactor (t : Tree) : List Frame → Tree × List Frame
  | .signed s :: frames => closeFactor (.signed s t) frames
  | .product l s :: frames => (.product l s t, frames)
  | frames => (t, frames)

/-- A finished term closes the sum it ends. -/
def closeTerm (t : Tree) : List Frame → Tree × List Frame
  | .sum l s :: frames => (.sum l s t, frames)
  | frames => (t, frames)

/-- Closing frames behind a factor does not change the tree around it. -/
theorem fill_closeFactor (t : Tree) (frames : List Frame) :
    fill (closeFactor t frames).2 (closeFactor t frames).1 = fill frames t := by
  fun_induction closeFactor t frames with
  | case1 t s frames ih => exact ih
  | case2 => rfl
  | case3 => rfl

/-- Closing the frame behind a term does not change the tree around it. -/
theorem fill_closeTerm (t : Tree) (frames : List Frame) :
    fill (closeTerm t frames).2 (closeTerm t frames).1 = fill frames t := by
  unfold closeTerm
  split
  · rfl
  · rfl

/-- A finished expression that is followed by something other than an operator. -/
def stopAfter (t : Tree) (frames : List Frame) (inside outside : Fault) : Tree :=
  match frames with
  | .group :: _ => fill frames (.stopped t inside)
  | _ => fill frames (.stopped t outside)

/-- The count or face count of a dice token; none if it is left out. -/
def numeral? (digits : List Char) : Option Nat :=
  if digits.isEmpty then none else some (Text.numeralValue digits)

/-- Opens one more level, unless there are too many. -/
def openLevel (frames : List Frame) (f : Frame) (read : List Frame → Tree) : Tree :=
  if depth frames < maxDepth then read (f :: frames) else fill frames (.fault .tooDeep)

mutual

/-- Reads on where an operand has to come. -/
def readOperand (frames : List Frame) : List Token → Tree
  | [] => fill frames (.fault .unexpectedEnd)
  | .number ds :: ts =>
      let r := closeFactor (.number ds) frames
      readOperator r.1 r.2 ts
  | .dice count _ faces :: ts =>
      let r := closeFactor (.dice (numeral? count) (numeral? faces)) frames
      readOperator r.1 r.2 ts
  | .sign s :: ts => openLevel frames (.signed s) fun frames' => readOperand frames' ts
  | .opening :: ts => openLevel frames .group fun frames' => readOperand frames' ts
  | .scale s :: _ => fill frames (.fault (.unexpectedOperator s.symbol))
  | .closing :: _ => fill frames (.fault (.unexpectedOperator ')'))

/-- Reads on after a factor that has been joined to the term it belongs to. -/
def readOperator (t : Tree) (frames : List Frame) : List Token → Tree
  | [] =>
      -- Only a group can still be open behind a complete expression.
      let r := closeTerm t frames
      match r.2 with
      | [] => r.1
      | _ => fill r.2 (.stopped r.1 .unexpectedEnd)
  | .scale s :: ts => readOperand (.product t s :: frames) ts
  | .sign s :: ts =>
      -- The term ends here and becomes the left side of the sum.
      let r := closeTerm t frames
      readOperand (.sum r.1 s :: r.2) ts
  | .closing :: ts =>
      let r := closeTerm t frames
      match r.2 with
      -- The group is itself a factor of what is open around it.
      | .group :: frames' =>
          let r' := closeFactor (.group r.1) frames'
          readOperator r'.1 r'.2 ts
      | _ => fill r.2 (.stopped r.1 (.unexpectedToken Token.closing.text))
  | token :: _ =>
      let r := closeTerm t frames
      stopAfter r.1 r.2 .unbalanced (.unexpectedToken token.text)

end

/-- The tree of a list of tokens. -/
def parse (ts : List Token) : Tree := readOperand [] ts

/-- The tree of an expression, once all its tokens could be read. -/
def parseText (expression : String) : Except Fault Tree := (tokens expression).map parse

end Tabletop.Dice
