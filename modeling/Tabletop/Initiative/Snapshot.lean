import Tabletop.Initiative.Order
import Tabletop.Json.Reader
import Tabletop.Json.Writer
import Tabletop.Row.Field

/-!
# Stored turn orders

Between two commands a turn order is kept as a JSON text.  The text holds a version, the entries by
their ranks, the place of the turn and the next rank.

Reading is lenient about integers, and all fields but those of an entry may be left out.  A place
beyond the end is taken modulo the number of entries, and the next rank is raised above all ranks.
Names must differ.

## Main definitions

* `Snapshot` — what a text holds.
* `TurnOrder.snapshot`, `Snapshot.toValue` — writing.
* `Snapshot.ofValue`, `Snapshot.restore` — reading.
* `TurnOrder.render`, `TurnOrder.read` — the text of an order, and the order of a text.
-/

namespace Tabletop.Initiative

open Json Row

/-- What the text of a turn order holds. -/
structure Snapshot where
  /-- The entries. -/
  entries : List Entry
  /-- The place of the turn. -/
  index : Nat
  /-- The rank of the next new entry. -/
  nextRank : Nat
  deriving DecidableEq, Repr

/-! ### Writing -/

/-- An order with its entries by rank. -/
def TurnOrder.snapshot (o : TurnOrder) : Snapshot :=
  ⟨o.entries.mergeSort fun a b => decide (a.rank ≤ b.rank), o.index, o.nextRank⟩

/-- An entry as a JSON value. -/
def Entry.toValue (e : Entry) : Value :=
  .object [("name", .string e.name), ("value", .int e.value), ("insertion_seq", .int e.rank)]

/-- A snapshot as a JSON value. -/
def Snapshot.toValue (s : Snapshot) : Value :=
  .object
    [("version", .int 1), ("entries", .array (s.entries.map Entry.toValue)),
     ("current_index", .int s.index), ("next_seq", .int s.nextRank)]

/-- The text of a turn order. -/
def TurnOrder.render (o : TurnOrder) : String := o.snapshot.toValue.render

/-! ### Reading -/

/-- Reads an entry. -/
def Entry.ofValue : Value → Checked Entry
  | .object members =>
    (both
      (both (required (readText 1 none) members "name") (required readInteger members "value"))
      (required readNatural members "insertion_seq")).map
      fun ((name, value), rank) => ⟨name, value, rank⟩
  | _ => .error [⟨"entries", .objectType⟩]

/-- Reads all values of a list and keeps the faults of all of them. -/
def readAll {α : Type} (read : Value → Checked α) : List Value → Checked (List α)
  | [] => .ok []
  | v :: vs => (both (read v) (readAll read vs)).map fun (a, as) => a :: as

/-- Reads the entries of a snapshot. -/
def readEntries (members : List (String × Value)) : Checked (List Entry) :=
  match field? members "entries" with
  | none => .ok []
  | some (.array items) => readAll Entry.ofValue items
  | some _ => .error [⟨"entries", .listType⟩]

/-- Reads a snapshot. -/
def Snapshot.ofValue : Value → Checked Snapshot
  | .object members =>
    (both
      (both (both (optional 1 readInteger members "version") (readEntries members))
        (optional 0 readNatural members "current_index"))
      (optional 0 readNatural members "next_seq")).map
      fun (((_, entries), index), nextRank) => ⟨entries, index, nextRank⟩
  | _ => .error [⟨"", .objectType⟩]

/-- Adds entries to standings; no name may occur twice. -/
def addEntries (standings : InsertionMap String Standing) :
    List Entry → Except Error (InsertionMap String Standing)
  | [] => .ok standings
  | e :: es =>
    if standings.contains e.name then .error (.format (.duplicateName e.name))
    else addEntries (standings.put e.name ⟨e.value, e.rank⟩) es

/-- The least number above all ranks. -/
def rankBound (entries : List Entry) : Nat := entries.foldl (fun n e => max n (e.rank + 1)) 0

/-- The turn order of a snapshot. -/
def Snapshot.restore (s : Snapshot) : Except Error TurnOrder :=
  (addEntries .empty s.entries).map fun standings =>
    { standings := standings
      index := if s.entries.isEmpty then 0 else s.index % s.entries.length
      nextRank := max s.nextRank (rankBound s.entries) }

/-- The turn order of a text. -/
def TurnOrder.read (text : String) : Except Error TurnOrder :=
  match read? text with
  | none => .error (.format (.snapshot 1))
  | some v =>
    match Snapshot.ofValue v with
    | .error faults => .error (.format (.snapshot faults.length))
    | .ok s => s.restore

end Tabletop.Initiative
