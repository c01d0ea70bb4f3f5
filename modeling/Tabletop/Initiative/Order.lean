import Tabletop.Error
import Tabletop.InsertionMap
import Tabletop.Text.Blank

/-!
# Turn orders

A turn order holds entries with different names.  They act from the highest value to the lowest;
of two with the same value the one that was added first acts first.  One entry holds the turn.
Removing an entry leaves the turn where it is, or passes it on if its holder is removed.

## Main definitions

* `Entry` — a name with its value and its rank of insertion.
* `TurnOrder` — the entries, the place of the turn, and the next rank.
* `display` — the entries in the order in which they act.
* `current?`, `slots` — who holds the turn.
* `add`, `remove`, `advance`, `clear` — the operations.

## Main results

* `display_perm`, `pairwise_display` — the displayed order holds the entries and is sorted.
-/

namespace Tabletop.Initiative

open Text

/-- What a turn order knows about a name. -/
structure Standing where
  /-- The initiative value. -/
  value : Int
  /-- The rank of insertion, which decides between equal values. -/
  rank : Nat
  deriving DecidableEq, Repr

/-- A name in a turn order. -/
structure Entry where
  /-- The name. -/
  name : String
  /-- The initiative value. -/
  value : Int
  /-- The rank of insertion, which decides between equal values. -/
  rank : Nat
  deriving DecidableEq, Repr

/-- A turn order. -/
structure TurnOrder where
  /-- The standing of each name. -/
  standings : InsertionMap String Standing
  /-- The place of the turn in the displayed order. -/
  index : Nat
  /-- The rank of the next new entry. -/
  nextRank : Nat

/-- A place of the displayed order. -/
structure Slot where
  /-- The number of the place, from zero. -/
  position : Nat
  /-- The entry at the place. -/
  entry : Entry
  /-- Whether it holds the turn. -/
  isCurrent : Bool
  deriving DecidableEq, Repr

namespace TurnOrder

/-- The order without entries. -/
def empty : TurnOrder := ⟨.empty, 0, 0⟩

/-- The entries in the order in which their names came. -/
def entries (o : TurnOrder) : List Entry :=
  o.standings.toList.map fun p => ⟨p.1, p.2.value, p.2.rank⟩

/-- The number of entries. -/
def size (o : TurnOrder) : Nat := o.standings.size

/-- There are as many entries as the size says. -/
@[simp] theorem length_entries (o : TurnOrder) : o.entries.length = o.size := List.length_map _

/-- The names of the entries in the order in which they came. -/
theorem map_name_entries (o : TurnOrder) : o.entries.map Entry.name = o.standings.keys := by
  rw [entries, List.map_map]
  rfl

/-- The order without entries has no entry. -/
@[simp] theorem entries_empty : empty.entries = [] := rfl

/-- The order without entries is empty. -/
@[simp] theorem size_empty : empty.size = 0 := rfl

/-- Whether one entry acts before or with another: the higher value, then the lower rank. -/
def actsBefore (a b : Entry) : Bool :=
  decide (b.value < a.value) || (decide (a.value = b.value) && decide (a.rank ≤ b.rank))

/-- The entries in the order in which they act. -/
def display (o : TurnOrder) : List Entry := o.entries.mergeSort actsBefore

/-- Acting before is transitive. -/
theorem actsBefore_trans {a b c : Entry} (hab : actsBefore a b = true)
    (hbc : actsBefore b c = true) : actsBefore a c = true := by
  simp only [actsBefore, Bool.or_eq_true, Bool.and_eq_true, decide_eq_true_eq] at hab hbc ⊢
  omega

/-- Of two entries one acts before or with the other. -/
theorem actsBefore_total (a b : Entry) : (actsBefore a b || actsBefore b a) = true := by
  simp only [actsBefore, Bool.or_eq_true, Bool.and_eq_true, decide_eq_true_eq]
  omega

/-- The displayed order is a rearrangement of the entries. -/
theorem display_perm (o : TurnOrder) : o.display.Perm o.entries := List.mergeSort_perm _ _

/-- The displayed entries are the entries. -/
@[simp] theorem mem_display {o : TurnOrder} {e : Entry} : e ∈ o.display ↔ e ∈ o.entries :=
  List.mem_mergeSort

/-- As many entries are displayed as there are. -/
@[simp] theorem length_display (o : TurnOrder) : o.display.length = o.size := by
  rw [display, List.length_mergeSort, length_entries]

/-- In the displayed order an entry acts before or with all that follow it. -/
theorem pairwise_display (o : TurnOrder) :
    o.display.Pairwise fun a b => actsBefore a b = true :=
  @List.pairwise_mergeSort Entry actsBefore (fun _ _ _ => actsBefore_trans) actsBefore_total
    o.entries

/-- The entry that holds the turn, if there is any entry. -/
def current? (o : TurnOrder) : Option Entry := o.display[o.index]?

/-- Whether a name, as it stands, is in the order. -/
def contains (o : TurnOrder) (name : String) : Bool := o.standings.contains name

/-- The displayed order with the numbers of the places. -/
def slots (o : TurnOrder) : List Slot :=
  o.display.zipIdx.map fun p => ⟨p.2, p.1, p.2 == o.index⟩

/-- A name without the blanks around it; it may not be blank. -/
def readName (name : String) : Except Error String :=
  let name := trim name
  if name.isEmpty then .error (.format .blankName) else .ok name

/-- Gives a name a value.  A name that is there keeps its rank, a new one gets the next rank. -/
def put (o : TurnOrder) (name : String) (value : Int) : Entry × TurnOrder :=
  match o.standings.get? name with
  | some s =>
    (⟨name, value, s.rank⟩, { o with standings := o.standings.put name ⟨value, s.rank⟩ })
  | none =>
    (⟨name, value, o.nextRank⟩,
      { o with
        standings := o.standings.put name ⟨value, o.nextRank⟩
        nextRank := o.nextRank + 1 })

/-- The standing of a name after a name was given a value. -/
theorem get?_standings_put (o : TurnOrder) (name : String) (value : Int) :
    (o.put name value).2.standings.get? name = some ⟨value, (o.put name value).1.rank⟩ := by
  unfold put
  split
  · simp
  · simp

/-- The turn keeps its place when a name is given a value. -/
@[simp] theorem index_put (o : TurnOrder) (name : String) (value : Int) :
    (o.put name value).2.index = o.index := by
  unfold put
  split
  · rfl
  · rfl

/-- Gives a name a value, once the blanks around it are dropped. -/
def add (o : TurnOrder) (name : String) (value : Int) : Except Error (Entry × TurnOrder) :=
  (readName name).map fun name => o.put name value

/-- The place of the turn after the entry at a place has been removed, `left` entries being left.
The turn stays with its holder; if the holder was removed, the next one has it. -/
def indexAfter (index removed left : Nat) : Nat :=
  if left = 0 then 0
  -- The holder has moved up by one place.
  else if removed < index then index - 1
  -- The holder was the last one, so the turn goes to the top.
  else if left ≤ index then 0
  else index

/-- Removes a name, once the blanks around it are dropped, and says whether it was there. -/
def remove (o : TurnOrder) (name : String) : Bool × TurnOrder :=
  let name := trim name
  if o.contains name then
    let place := o.display.findIdx fun e => e.name == name
    let standings := o.standings.erase name
    (true, { o with standings := standings, index := indexAfter o.index place standings.size })
  else (false, o)

/-- Passes the turn to the next entry, from the last to the first. -/
def advance (o : TurnOrder) : Except Error (Entry × TurnOrder) :=
  let o' := { o with index := (o.index + 1) % o.size }
  match o'.current? with
  | some e => .ok (e, o')
  | none => .error .emptyOrder

/-- Removes all entries, and says whether there were any. -/
def clear (o : TurnOrder) : Bool × TurnOrder := (!o.standings.isEmpty, empty)

end TurnOrder

end Tabletop.Initiative
