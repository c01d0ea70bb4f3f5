import Tabletop.Effect
import Tabletop.Row.Field

/-!
# Tables of rows

A table is a list of rows, and a row gives values to columns.  A query selects, changes or removes
the rows in which certain columns have certain texts, or appends a row.  The table keeps a log of
the queries, and may be unable to count.

## Main definitions

* `Cells`, `Filter`, `Query` — rows, conditions on rows, and queries.
* `Table` — the rows with the log.
* `Access` — what works on a table and may find a row that does not fit.
* `select`, `countRows`, `insert`, `update`, `delete` — the queries carried out.

## Main results

* `Access.bind_apply` — one access after another.
* `select_apply`, `countRows_apply`, … — what a query does to a given table.
-/

namespace Tabletop.Row

open Json

/-- The cells of a row: columns with their values. -/
abbrev Cells := List (String × Value)

/-- A condition on rows: a column has a text. -/
structure Filter where
  /-- The column. -/
  column : String
  /-- The text. -/
  text : String
  deriving DecidableEq, Repr

/-- Whether a row meets a condition; a row without the column does not. -/
def Filter.holds (f : Filter) (row : Cells) : Bool :=
  match field? row f.column with
  | some (.string s) => s == f.text
  | _ => false

/-- Whether a row meets all conditions. -/
def meets (filters : List Filter) (row : Cells) : Bool := filters.all (·.holds row)

/-- Without conditions every row is taken. -/
@[simp] theorem meets_nil (row : Cells) : meets [] row = true := rfl

/-- A row meets several conditions if it meets each of them. -/
@[simp] theorem meets_cons (f : Filter) (filters : List Filter) (row : Cells) :
    meets (f :: filters) row = (f.holds row && meets filters row) := rfl

/-- What a query does. -/
inductive Action where
  /-- It gives the named columns of rows. -/
  | select (columns : String)
  /-- It appends a row. -/
  | insert (row : Cells)
  /-- It gives columns of rows new values. -/
  | update (values : Cells)
  /-- It removes rows. -/
  | delete

/-- A query: what it does, and to which rows. -/
structure Query where
  /-- What it does. -/
  action : Action
  /-- The conditions on the rows. -/
  filters : List Filter

/-- The rows of a table. -/
structure Table where
  /-- The rows in order. -/
  rows : List Cells
  /-- The queries that were carried out. -/
  log : List Query
  /-- Whether the table can count rows. -/
  counts : Bool

/-- What works on a table and may find a row that does not fit. -/
abbrev Access := ExceptT (List FieldFault) (StateM Table)

/-- Gives columns of a row new values. -/
def merge (row values : Cells) : Cells :=
  values.foldl (fun r v => InsertionMap.write v.1 v.2 r) row

/-- Writes a query into the log. -/
def record (q : Query) : Access Unit := modify fun t => { t with log := t.log ++ [q] }

/-- The rows that meet the conditions. -/
def select (filters : List Filter) : Access (List Cells) := do
  record ⟨.select "*", filters⟩
  let t ← get
  pure (t.rows.filter (meets filters))

/-- The number of rows that meet the conditions, zero if the table cannot count. -/
def countRows (column : String) (filters : List Filter) : Access Nat := do
  record ⟨.select column, filters⟩
  let t ← get
  pure (if t.counts then (t.rows.filter (meets filters)).length else 0)

/-- Appends a row. -/
def insert (row : Cells) : Access Unit := do
  record ⟨.insert row, []⟩
  modify fun t => { t with rows := t.rows ++ [row] }

/-- Gives columns of the rows that meet the conditions new values. -/
def update (values : Cells) (filters : List Filter) : Access Unit := do
  record ⟨.update values, filters⟩
  modify fun t =>
    { t with rows := t.rows.map fun row => if meets filters row then merge row values else row }

/-- Removes the rows that meet the conditions. -/
def delete (filters : List Filter) : Access Unit := do
  record ⟨.delete, filters⟩
  modify fun t => { t with rows := t.rows.filter fun row => !meets filters row }

/-- A checked result as an access. -/
def accept {α : Type} (r : Checked α) : Access α := ExceptT.mk (pure r)

/-! ### Queries on a given table -/

/-- The second of two accesses works on what the first has left, unless that found a row that does
not fit. -/
theorem Access.bind_apply {α β : Type} (first : Access α) (second : α → Access β) (t : Table) :
    (first >>= second) t =
      match first t with
      | (.ok a, t') => second a t'
      | (.error e, t') => (.error e, t') := by
  rcases h : first t with ⟨e | a, t'⟩
  · exact Effect.bind_of_error h second
  · exact Effect.bind_of_ok h second

/-- What an access finds may be changed behind it. -/
theorem Access.map_apply {α β : Type} (f : α → β) (access : Access α) (t : Table) :
    (f <$> access) t = ((access t).1.map f, (access t).2) :=
  Effect.map_apply f access t

/-- A checked result leaves the table as it is. -/
@[simp] theorem accept_apply {α : Type} (r : Checked α) (t : Table) : accept r t = (r, t) := rfl

/-- A result leaves the table as it is. -/
@[simp] theorem Access.pure_apply {α : Type} (a : α) (t : Table) :
    (pure a : Access α) t = (.ok a, t) := rfl

/-- Looking for rows only writes to the log. -/
@[simp] theorem select_apply (filters : List Filter) (t : Table) :
    select filters t =
      (.ok (t.rows.filter (meets filters)), { t with log := t.log ++ [⟨.select "*", filters⟩] }) :=
  rfl

/-- Counting rows only writes to the log. -/
@[simp] theorem countRows_apply (column : String) (filters : List Filter) (t : Table) :
    countRows column filters t =
      (.ok (if t.counts then (t.rows.filter (meets filters)).length else 0),
        { t with log := t.log ++ [⟨.select column, filters⟩] }) := rfl

/-- A row that is appended comes last. -/
@[simp] theorem insert_apply (row : Cells) (t : Table) :
    insert row t =
      (.ok (), { t with rows := t.rows ++ [row], log := t.log ++ [⟨.insert row, []⟩] }) := rfl

/-- An update changes rows in their places. -/
@[simp] theorem update_apply (values : Cells) (filters : List Filter) (t : Table) :
    update values filters t =
      (.ok (), { t with
        rows := t.rows.map fun row => if meets filters row then merge row values else row
        log := t.log ++ [⟨.update values, filters⟩] }) := rfl

/-- Removing rows leaves the others in their order. -/
@[simp] theorem delete_apply (filters : List Filter) (t : Table) :
    delete filters t =
      (.ok (), { t with
        rows := t.rows.filter fun row => !meets filters row
        log := t.log ++ [⟨.delete, filters⟩] }) := rfl

end Tabletop.Row
