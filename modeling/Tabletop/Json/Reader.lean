import Tabletop.Json.Token

/-!
# Reading JSON texts

The tokens are read once, from left to right.  What is open around the place of reading is a stack
of frames, the innermost first: arrays and objects with the values that are already complete.  A
key that occurs again in an object takes its last value.  The number of arrays and objects around a
value is limited, to two hundred unless another limit is given.

## Main definitions

* `Frame` — an array or an object that is being read.
* `Place` — what is read and what may come next.
* `readWithin?`, `read?` — the value of a JSON text.
-/

namespace Tabletop.Json

/-- An array or an object that is open. -/
inductive Frame where
  /-- An array with its items so far. -/
  | items (done : List Value)
  /-- An object with its members so far and the key of the next one. -/
  | member (done : List (String × Value)) (key : String)

/-- The place of reading: the open frames, and what may come next. -/
inductive Place where
  /-- A value. -/
  | value (frames : List Frame)
  /-- A value or the end of the array that has just been opened. -/
  | firstItem (frames : List Frame)
  /-- A key or the end of the object that has just been opened. -/
  | firstKey (frames : List Frame)
  /-- A key of an object with these members. -/
  | key (done : List (String × Value)) (frames : List Frame)
  /-- A colon behind a key. -/
  | colon (done : List (String × Value)) (key : String) (frames : List Frame)
  /-- A comma or a closing bracket, behind a value. -/
  | after (v : Value) (frames : List Frame)

/-- What a token does where a value may stand, with a limit on the frames around it. -/
def startValue (limit : Nat) (frames : List Frame) (t : Token) : Option Place :=
  if limit < frames.length then none
  else
    match t with
    | .atom v => some (.after v frames)
    | .text s => some (.after (.string s) frames)
    | .openArray => some (.firstItem frames)
    | .openObject => some (.firstKey frames)
    | _ => none

/-- What a token does at a place. -/
def Place.step (limit : Nat) : Place → Token → Option Place
  | .value frames, t => startValue limit frames t
  -- An array that has just been opened may end at once, or its first item comes.
  | .firstItem frames, .closeArray => some (.after (.array []) frames)
  | .firstItem frames, t => startValue limit (.items [] :: frames) t
  -- In an object a key, a colon and a value follow each other.
  | .firstKey frames, .closeObject => some (.after (.object []) frames)
  | .firstKey frames, .text k => some (.colon [] k frames)
  | .key done frames, .text k => some (.colon done k frames)
  | .colon done k frames, .colon => some (.value (.member done k :: frames))
  -- Behind a value the innermost frame goes on or is closed.
  | .after v (.items done :: frames), .comma => some (.value (.items (done ++ [v]) :: frames))
  | .after v (.items done :: frames), .closeArray =>
      some (.after (.array (done ++ [v])) frames)
  | .after v (.member done k :: frames), .comma =>
      some (.key (InsertionMap.write k v done) frames)
  | .after v (.member done k :: frames), .closeObject =>
      some (.after (.object (InsertionMap.write k v done)) frames)
  | _, _ => none

/-- The place after a list of tokens. -/
def Place.run (limit : Nat) : Place → List Token → Option Place
  | p, [] => some p
  | p, t :: ts => (p.step limit t).bind fun p' => p'.run limit ts

/-- Without tokens the place stays. -/
@[simp] theorem Place.run_nil (limit : Nat) (p : Place) : p.run limit [] = some p := rfl

/-- The first token is read before the others. -/
@[simp] theorem Place.run_cons (limit : Nat) (p : Place) (t : Token) (ts : List Token) :
    p.run limit (t :: ts) = (p.step limit t).bind fun p' => p'.run limit ts := rfl

/-- The value that has been read when nothing is open. -/
def Place.result? : Place → Option Value
  | .after v [] => some v
  | _ => none

/-- The value of a list of tokens. -/
def ofTokens? (limit : Nat) (ts : List Token) : Option Value :=
  ((Place.value []).run limit ts).bind Place.result?

/-- The value of a JSON text, with a limit on the arrays and objects around a value. -/
def readWithin? (limit : Nat) (s : String) : Option Value :=
  (tokens? s.toList).bind (ofTokens? limit)

/-- The largest number of arrays and objects around a value. -/
def maxNesting : Nat := 200

/-- The value of a JSON text. -/
def read? (s : String) : Option Value := readWithin? maxNesting s

end Tabletop.Json
