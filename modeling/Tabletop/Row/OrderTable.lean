import Tabletop.Row.Database
import Tabletop.Row.Record

/-!
# Turn orders in a table

A table of turn orders can stand for the stored orders of channels: each row holds the text of one
channel and the moment when it was written.

## Main definitions

* `OrderTable.row?`, `OrderTable.get?` — reading.
* `OrderTable.put`, `OrderTable.deleteChannel` — writing.
-/

namespace Tabletop.Row.OrderTable

open Json

/-- The condition that a row belongs to a channel. -/
def ofChannel (channel : String) : Filter := ⟨"channel_id", channel⟩

/-- The row of a channel. -/
def row? (channel : String) : Access (Option OrderRow) := do
  let rows ← select [ofChannel channel]
  match rows with
  | [] => pure none
  | row :: _ => some <$> accept (OrderRow.ofMembers row)

/-- The stored text of a channel. -/
def get? (channel : String) : Access (Option String) := do
  let row ← row? channel
  pure (row.map OrderRow.data)

/-- Stores the text of a channel at a moment. -/
def put (now channel text : String) : Access Unit := do
  let row ← row? channel
  match row with
  | some _ => update [("data", .string text), ("updated_at", .string now)] [ofChannel channel]
  | none =>
    insert
      [("channel_id", .string channel), ("data", .string text), ("updated_at", .string now)]

/-- Removes the stored text of a channel. -/
def deleteChannel (channel : String) : Access Unit := delete [ofChannel channel]

end Tabletop.Row.OrderTable
