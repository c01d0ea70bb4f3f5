import Tabletop.InsertionMap
import Tabletop.Number.Binary64

/-!
# JSON values

The values that JSON texts write.  Integers have any size and are kept apart from numbers with a
fraction or an exponent.  The keys of an object differ from each other.

## Main definitions

* `Value` — JSON values.
* `Value.field?` — the value of a key of an object.
-/

namespace Tabletop.Json

open Number

/-- A JSON value. -/
inductive Value where
  /-- The value `null`. -/
  | null
  /-- A truth value. -/
  | bool (b : Bool)
  /-- A number without fraction and exponent. -/
  | int (n : Int)
  /-- Any other number. -/
  | float (x : Binary64)
  /-- A text. -/
  | string (s : String)
  /-- A list of values. -/
  | array (items : List Value)
  /-- Keys with their values, in order. -/
  | object (members : List (String × Value))
  deriving Inhabited

/-- The value of a key among the members of an object. -/
def field? (members : List (String × Value)) (key : String) : Option Value :=
  InsertionMap.find key members

end Tabletop.Json
