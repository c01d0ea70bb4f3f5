import Tabletop.Json.Value
import Tabletop.Text.Digit

/-!
# Tokens of JSON texts

A JSON text is a sequence of brackets, separators, texts in double quotes, and atoms: words and
numbers.  Reading goes through the characters once, in a state that says what the character is
part of.

Texts may not hold control characters as they are.  A numeric escape gives a code unit of sixteen
bits; two of them that form a pair give one character, and one alone that is half of a pair is a
fault.  The words for infinities and for no number are numbers here.

## Main definitions

* `Token` — the tokens.
* `number?`, `atom?` — the value of a number, and of a word or a number.
* `State`, `step` — the states of reading, and what a character does in them.
* `tokens?` — the tokens of a text.
-/

namespace Tabletop.Json

open Number

/-- A token of a JSON text. -/
inductive Token where
  /-- An opening square bracket. -/
  | openArray
  /-- A closing square bracket. -/
  | closeArray
  /-- An opening curly bracket. -/
  | openObject
  /-- A closing curly bracket. -/
  | closeObject
  /-- A colon. -/
  | colon
  /-- A comma. -/
  | comma
  /-- A text. -/
  | text (s : String)
  /-- A word or a number. -/
  | atom (v : Value)

/-! ### Atoms -/

/-- Whether digits have no leading zero. -/
def isWhole (digits : List Char) : Bool :=
  match digits with
  | [] => false
  | ['0'] => true
  | '0' :: _ => false
  | _ => true

/-- The exponent of a number: a letter, an optional sign, and digits; zero if there is none. -/
def exponent? (cs : List Char) : Option Int :=
  match cs with
  | [] => some 0
  | c :: rest =>
    if c = 'e' || c = 'E' then
      match rest with
      | '-' :: digits => (power? digits).map fun n => -(n : Int)
      | '+' :: digits => (power? digits).map fun n => (n : Int)
      | digits => (power? digits).map fun n => (n : Int)
    else none
where
  /-- The number that digits write, if there are any and nothing else. -/
  power? (digits : List Char) : Option Nat :=
    if !digits.isEmpty && digits.all Char.isDigit then some (Text.numeralValue digits) else none

/-- The most digits of the whole part of a number. -/
def maxWholeDigits : Nat := 4300

/-- The number that a text without sign writes. -/
def unsigned? (negative : Bool) (cs : List Char) : Option Value :=
  let whole := cs.takeWhile Char.isDigit
  if isWhole whole && decide (whole.length ≤ maxWholeDigits) then
    match cs.dropWhile Char.isDigit with
    | [] =>
      let n : Int := Text.numeralValue whole
      some (.int (if negative then -n else n))
    | '.' :: rest =>
      let fraction := rest.takeWhile Char.isDigit
      if fraction.isEmpty then none
      else
        (exponent? (rest.dropWhile Char.isDigit)).map fun e =>
          .float (.ofDecimal negative (Text.numeralValue (whole ++ fraction))
            (e - fraction.length))
    | rest =>
      (exponent? rest).map fun e => .float (.ofDecimal negative (Text.numeralValue whole) e)
  else none

/-- The number that a text writes. -/
def number? (cs : List Char) : Option Value :=
  match cs with
  | '-' :: rest => unsigned? true rest
  | _ => unsigned? false cs

/-- The value of a word or a number.  Only the infinite among the words may have a sign. -/
def atom? (cs : List Char) : Option Value :=
  if cs = "null".toList then some .null
  else if cs = "true".toList then some (.bool true)
  else if cs = "false".toList then some (.bool false)
  else if cs = "NaN".toList then some (.float .nan)
  else if cs = "Infinity".toList then some (.float (.infinite false))
  else if cs = "-Infinity".toList then some (.float (.infinite true))
  else number? cs

/-- Whether an atom may hold the character. -/
def isAtomChar (c : Char) : Bool := c.isAlphanum || c == '-' || c == '+' || c == '.'

/-! ### Characters -/

/-- The value of a hexadecimal digit. -/
def hexValue? (c : Char) : Option Nat :=
  if c.isDigit then some (c.toNat - 0x30)
  else if 'a' ≤ c && c ≤ 'f' then some (c.toNat - 0x57)
  else if 'A' ≤ c && c ≤ 'F' then some (c.toNat - 0x37)
  else none

/-- Whether a code unit is the first half of a pair. -/
def isHigh (n : Nat) : Bool := decide (0xD800 ≤ n) && decide (n < 0xDC00)

/-- Whether a code unit is the second half of a pair. -/
def isLow (n : Nat) : Bool := decide (0xDC00 ≤ n) && decide (n < 0xE000)

/-- The character of a pair of code units. -/
def joinPair (high low : Nat) : Char :=
  Char.ofNat (0x10000 + (high - 0xD800) * 0x400 + (low - 0xDC00))

/-- What a character stands for behind a backslash, the letter `u` apart. -/
def escaped? (c : Char) : Option Char :=
  if c = '"' || c = '\\' || c = '/' then some c
  else if c = 'b' then some '\x08'
  else if c = 'f' then some '\x0c'
  else if c = 'n' then some '\n'
  else if c = 'r' then some '\r'
  else if c = 't' then some '\t'
  else none

/-- What the next character is part of.  The characters that are already read come latest first. -/
inductive State where
  /-- Nothing yet. -/
  | between
  /-- A word or a number, with its characters so far. -/
  | inAtom (cs : List Char)
  /-- A text, with its characters so far. -/
  | inText (cs : List Char)
  /-- A text, behind a backslash. -/
  | afterBackslash (cs : List Char)
  /-- A numeric escape: the first half of a pair before it, the number of digits and the value. -/
  | inCode (cs : List Char) (high : Option Nat) (count value : Nat)
  /-- A text, behind the first half of a pair. -/
  | afterHigh (cs : List Char) (high : Nat)
  /-- A text, behind the first half of a pair and a backslash. -/
  | beforeLow (cs : List Char) (high : Nat)

/-- The characters between tokens. -/
def isSpace (c : Char) : Bool := c == ' ' || c == '\t' || c == '\n' || c == '\r'

/-- What a character does between tokens. -/
def start (c : Char) : Option (List Token × State) :=
  if isSpace c then some ([], .between)
  else if c = '[' then some ([.openArray], .between)
  else if c = ']' then some ([.closeArray], .between)
  else if c = '\x7b' then some ([.openObject], .between)
  else if c = '\x7d' then some ([.closeObject], .between)
  else if c = ':' then some ([.colon], .between)
  else if c = ',' then some ([.comma], .between)
  else if c = '"' then some ([], .inText [])
  else if isAtomChar c then some ([], .inAtom [c])
  else none

/-- A code unit that is complete, behind the first half of a pair if there was one. -/
def finishCode (cs : List Char) (high : Option Nat) (value : Nat) : Option State :=
  match high with
  | some h => if isLow value then some (.inText (joinPair h value :: cs)) else none
  | none =>
    if isHigh value then some (.afterHigh cs value)
    else if isLow value then none
    else some (.inText (Char.ofNat value :: cs))

/-- What a character does: the tokens that it completes, and what the next is part of. -/
def step : State → Char → Option (List Token × State)
  | .between, c => start c
  | .inAtom cs, c =>
      if isAtomChar c then some ([], .inAtom (c :: cs))
      else
        -- The character ends the atom and may be a token of its own.
        (atom? cs.reverse).bind fun v => (start c).map fun r => (.atom v :: r.1, r.2)
  | .inText cs, c =>
      if c = '"' then some ([.text (String.ofList cs.reverse)], .between)
      else if c = '\\' then some ([], .afterBackslash cs)
      else if c.toNat < 0x20 then none
      else some ([], .inText (c :: cs))
  | .afterBackslash cs, c =>
      if c = 'u' then some ([], .inCode cs none 0 0)
      else (escaped? c).map fun d => ([], .inText (d :: cs))
  | .inCode cs high count value, c =>
      (hexValue? c).bind fun d =>
        -- The fourth digit completes the code unit.
        if count = 3 then (finishCode cs high (16 * value + d)).map fun s => ([], s)
        else some ([], .inCode cs high (count + 1) (16 * value + d))
  | .afterHigh cs high, c => if c = '\\' then some ([], .beforeLow cs high) else none
  | .beforeLow cs high, c => if c = 'u' then some ([], .inCode cs (some high) 0 0) else none

/-- The tokens of the rest of a text. -/
def scan : State → List Char → Option (List Token)
  | .between, [] => some []
  | .inAtom cs, [] => (atom? cs.reverse).map fun v => [.atom v]
  | _, [] => none
  | s, c :: rest => (step s c).bind fun r => (scan r.2 rest).map (r.1 ++ ·)

/-- Nothing is left between two tokens. -/
@[simp] theorem scan_between_nil : scan .between [] = some [] := rfl

/-- One character more is one step more. -/
theorem scan_cons (s : State) (c : Char) (rest : List Char) :
    scan s (c :: rest) = (step s c).bind fun r => (scan r.2 rest).map (r.1 ++ ·) := by
  cases s <;> rfl

/-- The tokens of a text. -/
def tokens? (cs : List Char) : Option (List Token) := scan .between cs

end Tabletop.Json
