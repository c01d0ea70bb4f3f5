import Tabletop.Json.Value
import Tabletop.Number.Shortest
import Tabletop.Text.Quoted

/-!
# Writing JSON texts

A JSON value is written without spaces.  In texts the quote, the backslash and control characters
are escaped, those with a short escape by it; all other characters stand as they are.

## Main definitions

* `escape` — a character of a text.
* `writeText` — a text in quotes.
* `Value.chars`, `Value.render` — a value.
-/

namespace Tabletop.Json

open Number

/-- A character of a text as it is written. -/
def escape (c : Char) : List Char :=
  if c = '"' then ['\\', '"']
  else if c = '\\' then ['\\', '\\']
  else if c = '\x08' then ['\\', 'b']
  else if c = '\x0c' then ['\\', 'f']
  else if c = '\n' then ['\\', 'n']
  else if c = '\r' then ['\\', 'r']
  else if c = '\t' then ['\\', 't']
  else if c.toNat < 0x20 then '\\' :: 'u' :: Text.hexDigits 4 c.toNat
  else [c]

/-- A text in quotes. -/
def writeText (s : String) : List Char := '"' :: s.toList.flatMap escape ++ ['"']

/-- A number that is no integer; infinities and the value that is no number have no JSON form and
become `null`. -/
def writeFloat (x : Binary64) : List Char :=
  if x.isFinite then x.text.toList else "null".toList

mutual

/-- A value as it is written. -/
def Value.chars : Value → List Char
  | .null => "null".toList
  | .bool true => "true".toList
  | .bool false => "false".toList
  | .int n => (toString n).toList
  | .float x => writeFloat x
  | .string s => writeText s
  | .array items => '[' :: itemChars items ++ [']']
  | .object members => '\x7b' :: memberChars members ++ ['\x7d']

/-- The items of an array, with commas between them. -/
def itemChars : List Value → List Char
  | [] => []
  | v :: vs => v.chars ++ moreItems vs

/-- Further items of an array, each behind a comma. -/
def moreItems : List Value → List Char
  | [] => []
  | v :: vs => ',' :: v.chars ++ moreItems vs

/-- The members of an object, with commas between them. -/
def memberChars : List (String × Value) → List Char
  | [] => []
  | (k, v) :: ms => writeText k ++ ':' :: v.chars ++ moreMembers ms

/-- Further members of an object, each behind a comma. -/
def moreMembers : List (String × Value) → List Char
  | [] => []
  | (k, v) :: ms => ',' :: writeText k ++ ':' :: v.chars ++ moreMembers ms

end

/-- The JSON text of a value. -/
def Value.render (v : Value) : String := String.ofList v.chars

end Tabletop.Json
