import Tabletop.Row.Moment

/-!
# Rows of tables

A row of the table of attributes names a card and an attribute and gives its value.  A row of the
table of turn orders names a channel and holds a stored order, which is not looked into.  Unknown
fields are ignored.

## Main definitions

* `AttributeRow`, `AttributeRow.ofMembers` — a row of the table of attributes.
* `OrderRow`, `OrderRow.ofMembers` — a row of the table of turn orders.
-/

namespace Tabletop.Row

open Json

/-- A row of the table of attributes. -/
structure AttributeRow where
  /-- The card. -/
  card : String
  /-- The name of the attribute. -/
  name : String
  /-- Its value. -/
  value : Int
  deriving DecidableEq, Repr

/-- The most characters of the name of an attribute in a row. -/
def maxNameLength : Nat := 32

/-- Reads a row of the table of attributes. -/
def AttributeRow.ofMembers (members : List (String × Value)) : Checked AttributeRow :=
  (both
    (both
      (both (required (readText 1 none) members "card_id")
        (required (readText 1 (some maxNameLength)) members "name"))
      (required readInteger members "value"))
    (optional false readMoment members "updated_at")).map
    fun (((card, name), value), _) => ⟨card, name, value⟩

/-- A row of the table of turn orders. -/
structure OrderRow where
  /-- The channel. -/
  channel : String
  /-- The stored order. -/
  data : String
  /-- Whether the row says when it was written. -/
  isDated : Bool
  deriving DecidableEq, Repr

/-- Reads a row of the table of turn orders. -/
def OrderRow.ofMembers (members : List (String × Value)) : Checked OrderRow :=
  (both
    (both (required (readText 1 none) members "channel_id")
      (required (readText 0 none) members "data"))
    (optional false readMoment members "updated_at")).map
    fun ((channel, data), isDated) => ⟨channel, data, isDated⟩

end Tabletop.Row
