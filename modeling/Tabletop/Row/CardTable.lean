import Tabletop.Row.Database
import Tabletop.Row.Record

/-!
# Cards in a table

A table of attributes can stand for the card store: each row holds one attribute of one card.  An
attribute that is there is updated, and a new one is inserted while the card has room.

## Main definitions

* `CardTable.get?`, `CardTable.all`, `CardTable.count` — reading.
* `CardTable.set`, `CardTable.deleteCard` — writing.
-/

namespace Tabletop.Row.CardTable

open Json

/-- The condition that a row belongs to a card. -/
def ofCard (card : String) : Filter := ⟨"card_id", card⟩

/-- The condition that a row holds an attribute. -/
def named (name : String) : Filter := ⟨"name", name⟩

/-- The value of an attribute of a card. -/
def get? (card name : String) : Access (Option Int) := do
  let rows ← select [ofCard card, named name]
  match rows with
  | [] => pure none
  | row :: _ => do
      let r ← accept (AttributeRow.ofMembers row)
      pure (some r.value)

/-- The number of attributes of a card. -/
def count (card : String) : Access Nat := countRows "name" [ofCard card]

/-- Writes an attribute and says whether the card took it, when it may hold `cap` attributes. -/
def set (card name : String) (value cap : Int) : Access Bool := do
  let previous ← get? card name
  match previous with
  | some _ => do
      update [("value", .int value)] [ofCard card, named name]
      pure true
  | none => do
      -- Only a new attribute needs room on the card.
      let n ← count card
      if cap ≤ n then pure false
      else do
        insert [("card_id", .string card), ("name", .string name), ("value", .int value)]
        pure true

/-- The rows in order, unless one does not fit; then the faults of the first such row. -/
def readRows : List Cells → Checked (List AttributeRow)
  | [] => .ok []
  | row :: rows => do
      let r ← AttributeRow.ofMembers row
      let rs ← readRows rows
      .ok (r :: rs)

/-- All attributes of a card. -/
def all (card : String) : Access (InsertionMap String Int) := do
  let rows ← select [ofCard card]
  let rows ← accept (readRows rows)
  pure (.ofList (rows.map fun r => (r.name, r.value)))

/-- Removes all attributes of a card. -/
def deleteCard (card : String) : Access Unit := delete [ofCard card]

end Tabletop.Row.CardTable
