import Tabletop.Dice.Fault
import Tabletop.Text.Blank
import Tabletop.Text.Digit

/-!
# Tokens of dice expressions

A dice expression is a sequence of numbers, dice, signs, scales (`*` and `/`) and parentheses, with
blanks between them.  Dice are a letter `d` in either case with an optional count before it and
an optional number of faces after it, both written without a blank.  Digits of any script count.

Reading goes through the characters once.  What has been read of a number or of dice is kept as
a `Pending` token, which is finished by the first character that does not belong to it.

## Main definitions

* `Token` — the tokens, `Token.text` — how they were written.
* `Pending` — the token that is being read.
* `tokens` — the tokens of an expression.
-/

namespace Tabletop.Dice

open Text

/-- A plus or a minus, between two terms or before a factor. -/
inductive Sign where
  /-- The plus. -/
  | plus
  /-- The minus. -/
  | minus
  deriving DecidableEq, Repr

/-- A multiplication or division sign. -/
inductive Scale where
  /-- Multiplication. -/
  | times
  /-- Division. -/
  | divide
  deriving DecidableEq, Repr

/-- The character of a sign. -/
def Sign.symbol : Sign → Char
  | plus => '+'
  | minus => '-'

/-- The character of a scale. -/
def Scale.symbol : Scale → Char
  | times => '*'
  | divide => '/'

/-- A token of a dice expression. -/
inductive Token where
  /-- A number, with its digits as they were written. -/
  | number (digits : List Char)
  /-- Dice: the digits of the count, the letter between, the digits of the face count. -/
  | dice (count : List Char) (letter : Char) (faces : List Char)
  /-- A sign. -/
  | sign (s : Sign)
  /-- A scale. -/
  | scale (s : Scale)
  /-- An opening parenthesis. -/
  | opening
  /-- A closing parenthesis. -/
  | closing
  deriving DecidableEq, Repr

/-- A token as it was written. -/
def Token.chars : Token → List Char
  | number ds => ds
  | dice count letter faces => count ++ letter :: faces
  | sign s => [s.symbol]
  | scale s => [s.symbol]
  | opening => ['(']
  | closing => [')']

/-- A token as it was written. -/
def Token.text (t : Token) : String := String.ofList t.chars

/-- The token of a single character. -/
def Token.ofChar? (c : Char) : Option Token :=
  if c = '+' then some (.sign .plus)
  else if c = '-' then some (.sign .minus)
  else if c = '*' then some (.scale .times)
  else if c = '/' then some (.scale .divide)
  else if c = '(' then some .opening
  else if c = ')' then some .closing
  else none

/-- The character of a sign is read as that sign. -/
@[simp] theorem Token.ofChar?_sign (s : Sign) : Token.ofChar? s.symbol = some (.sign s) := by
  cases s <;> rfl

/-- The character of a scale is read as that scale. -/
@[simp] theorem Token.ofChar?_scale (s : Scale) : Token.ofChar? s.symbol = some (.scale s) := by
  cases s <;> rfl

/-- Whether the character marks dice. -/
def isDiceLetter (c : Char) : Bool := c == 'd' || c == 'D'

/-- The token that is being read. -/
inductive Pending where
  /-- None: the next character starts a token. -/
  | nothing
  /-- A number, or the count of dice. -/
  | digits (ds : List Char)
  /-- Dice, with the face count so far. -/
  | faces (count : List Char) (letter : Char) (ds : List Char)
  deriving DecidableEq, Repr

/-- The numerals of a pending token have at most nine digits. -/
def Pending.fits : Pending → Bool
  | nothing => true
  | digits ds => decide (ds.length ≤ maxDigits)
  | faces count _ ds => decide (count.length ≤ maxDigits) && decide (ds.length ≤ maxDigits)

/-- The token that a pending one becomes, if there is any. -/
def Pending.toList : Pending → List Token
  | nothing => []
  | digits ds => [.number ds]
  | faces count letter ds => [.dice count letter ds]

/-- What one character does while no token is pending. -/
def startToken (expression : String) (c : Char) : Except Fault (List Token × Pending) :=
  if isBlank c then .ok ([], .nothing)
  else if isDigit c then .ok ([], .digits [c])
  else if isDiceLetter c then .ok ([], .faces [] c [])
  else
    match Token.ofChar? c with
    | some t => .ok ([t], .nothing)
    | none => .error (.unexpectedCharacter c expression)

/-- Finishes the pending token with a character that does not belong to it. -/
def finishToken (expression : String) (p : Pending) (c : Char) :
    Except Fault (List Token × Pending) :=
  if p.fits then (startToken expression c).map fun r => (p.toList ++ r.1, r.2)
  else .error .longNumeral

/-- What one character does: the tokens it completes and the token that is pending after it. -/
def step (expression : String) : Pending → Char → Except Fault (List Token × Pending)
  | .nothing, c => startToken expression c
  | .digits ds, c =>
      if isDigit c then .ok ([], .digits (ds ++ [c]))
      else if isDiceLetter c then .ok ([], .faces ds c [])
      else finishToken expression (.digits ds) c
  | .faces count letter ds, c =>
      if isDigit c then .ok ([], .faces count letter (ds ++ [c]))
      else finishToken expression (.faces count letter ds) c

/-- The tokens of the rest of an expression. -/
def scan (expression : String) : Pending → List Char → Except Fault (List Token)
  | p, [] => if p.fits then .ok p.toList else .error .longNumeral
  | p, c :: rest =>
      match step expression p c with
      | .error e => .error e
      | .ok (done, p') => (scan expression p' rest).map (done ++ ·)

/-- At the end only the pending token is left. -/
theorem scan_nil (expression : String) (p : Pending) :
    scan expression p [] = if p.fits then .ok p.toList else .error .longNumeral := rfl

/-- One character more is one step more. -/
theorem scan_cons (expression : String) (p : Pending) (c : Char) (rest : List Char) :
    scan expression p (c :: rest) =
      match step expression p c with
      | .error e => .error e
      | .ok (done, p') => (scan expression p' rest).map (done ++ ·) := rfl

/-- A blank between tokens is passed over. -/
theorem scan_blank (expression : String) {c : Char} (hc : isBlank c = true) (rest : List Char) :
    scan expression .nothing (c :: rest) = scan expression .nothing rest := by
  rw [scan_cons, step, startToken, if_pos hc]
  show (scan expression .nothing rest).map ([] ++ ·) = scan expression .nothing rest
  rcases scan expression .nothing rest with e | ts
  · rfl
  · rfl

/-- The tokens of an expression; there is at least one. -/
def tokens (expression : String) : Except Fault (List Token) :=
  match scan expression .nothing expression.toList with
  | .error e => .error e
  | .ok [] => .error .empty
  | .ok ts => .ok ts

end Tabletop.Dice
