import Tabletop.Proofs.Card.Rows

/-!
# A table of attributes is a store of cards

Cards may be kept in memory or in a table.  A call on the table does what the same call on the store
does, except that a call for which a row with faults would have to be read is refused.  So as long
as all cards and attributes have names that fit into rows, there is no difference: both give the
same answers, refuse the same attributes, and list the attributes in the same order.

## Main definitions

* `CardCall`, `CardReply` — the calls on a store of cards and what they answer.
* `CardCall.onTable`, `CardCall.onStore` — a call on a table and on a store.
* `CardCall.checked` — a call on a store whose rows are checked when they are read.
* `runCalls` — calls one after another.
* `CardCall.Fits` — the names in a call fit into a row.
* `Readable` — all rows of a card can be read.

## Main results

* `Mirrors.onTable` — one call on a table.
* `Mirrors.runCalls` — **a run of calls on a table is a run on a store that checks its rows.**
* `runCalls_refines` — **with names that fit, a table cannot be told from a store in memory.**
-/

namespace Tabletop.Row

open Json

/-! ### Calls -/

/-- A call on a store of cards. -/
inductive CardCall where
  /-- Reads an attribute. -/
  | get (card name : String)
  /-- Writes an attribute of a card that may hold `cap` attributes. -/
  | set (card name : String) (value cap : Int)
  /-- Reads all attributes of a card. -/
  | all (card : String)
  deriving DecidableEq, Repr

/-- What a call answers. -/
inductive CardReply where
  /-- The value of an attribute, if it has one. -/
  | value (n : Option Int)
  /-- Whether the card took the value. -/
  | written (accepted : Bool)
  /-- The attributes of a card in their order. -/
  | attributes (pairs : List (String × Int))
  deriving DecidableEq, Repr

namespace CardCall

/-- The card that a call is about. -/
def card : CardCall → String
  | get card _ => card
  | set card _ _ _ => card
  | all card => card

/-- The attribute that a call is about, unless it is about all of them. -/
def name? : CardCall → Option String
  | get _ name => some name
  | set _ name _ _ => some name
  | all _ => none

/-- The names in a call fit into a row. -/
def Fits (call : CardCall) : Prop :=
  call.card ≠ "" ∧ ∀ name ∈ call.name?, name ≠ "" ∧ name.length ≤ maxNameLength

instance (call : CardCall) : Decidable call.Fits :=
  inferInstanceAs (Decidable (call.card ≠ "" ∧
    ∀ name ∈ call.name?, name ≠ "" ∧ name.length ≤ maxNameLength))

/-- A call on a table. -/
def onTable : CardCall → Table → Checked CardReply × Table
  | get card name => (CardReply.value <$> CardTable.get? card name : Access CardReply)
  | set card name value cap => (CardReply.written <$> CardTable.set card name value cap :)
  | all card => ((fun m => .attributes m.toList) <$> CardTable.all card : Access CardReply)

/-- A call on a store. -/
def onStore : CardCall → CardStore → CardReply × CardStore
  | get card name, store => (.value (store.get? card name), store)
  | set card name value cap, store =>
    (.written (store.set card name value cap).1, (store.set card name value cap).2)
  | all card, store => (.attributes (store.attributes card).toList, store)

/-- The faults of the rows that a call reads.  An attribute is read before it is written. -/
def faults (store : CardStore) : CardCall → List FieldFault
  | get card name => if store.get? card name = none then [] else rowFaults card name
  | set card name _ _ => if store.get? card name = none then [] else rowFaults card name
  | all card => firstFaults card (store.attributes card).keys

/-- A call on a store whose rows are checked when they are read: it is refused if one of them has
faults, and then nothing is written. -/
def checked (call : CardCall) (store : CardStore) : Checked CardReply × CardStore :=
  (verdict (call.faults store) (call.onStore store).1,
    if call.faults store = [] then (call.onStore store).2 else store)

end CardCall

/-- Calls one after another, with what they answer. -/
def runCalls {α σ : Type} (act : CardCall → σ → α × σ) : List CardCall → σ → List α × σ
  | [], s => ([], s)
  | call :: calls, s =>
    ((act call s).1 :: (runCalls act calls (act call s).2).1,
      (runCalls act calls (act call s).2).2)

/-! ### One call -/

namespace Mirrors

variable {rows : List AttributeRow} {t : Table} {store : CardStore}

/-- **Writing an attribute** to the table is writing it to the store, unless its row has faults. -/
theorem set_apply (h : Mirrors rows t store) (card name : String) (value cap : Int) :
    (CardTable.set card name value cap t).1 =
        verdict ((CardCall.set card name value cap).faults store)
          (store.set card name value cap).1 ∧
      ∃ rows', Mirrors rows' (CardTable.set card name value cap t).2
        (if (CardCall.set card name value cap).faults store = [] then
          (store.set card name value cap).2
        else store) := by
  obtain ⟨log, hget⟩ := h.get?_apply card name
  rw [CardTable.set, Access.bind_apply, hget]
  rcases hvalue : store.get? card name with _ | old
  · -- Only a new attribute is refused, when the card is full.
    obtain ⟨log', hcount⟩ := (h.relog log).count_apply card
    have hfaults : (CardCall.set card name value cap).faults store = [] := if_pos hvalue
    have haccepts : store.accepts card name cap =
        !decide (cap ≤ ((store.attributes card).size : Int)) := by
      rw [Bool.eq_iff_iff, Bool.not_eq_true', decide_eq_false_iff_not, ← Bool.not_eq_false,
        CardStore.accepts_eq_false_iff, h.writable, hvalue]
      simp
    rw [hfaults, verdict_nil, if_pos rfl]
    simp only [Access.bind_apply, hcount]
    by_cases hfull : cap ≤ ((store.attributes card).size : Int)
    · rw [CardStore.set_of_not_accepts (by rw [haccepts, decide_eq_true hfull]; rfl), if_pos hfull]
      exact ⟨rfl, rows, h.relog log'⟩
    · rw [CardStore.set_of_accepts (by rw [haccepts, decide_eq_false hfull]; rfl), if_neg hfull]
      exact ⟨rfl, h.insert hvalue value _⟩
  · have hthere : store.get? card name ≠ none := by
      rw [hvalue]
      exact Option.some_ne_none old
    have hset : store.set card name value cap = (true, store.write card name value) := by
      rw [CardStore.set_of_get? hvalue, h.writable]
      exact if_neg Bool.false_ne_true
    have hfaults : (CardCall.set card name value cap).faults store = rowFaults card name :=
      if_neg hthere
    rw [hfaults, hset]
    by_cases hfits : rowFaults card name = []
    · simp only [hfits, verdict_nil, if_true]
      exact ⟨rfl, h.update hthere value _⟩
    · simp only [verdict_of_ne_nil hfits, if_neg hfits]
      exact ⟨trivial, rows, h.relog log⟩

/-- **A call on a table is a call on the store that it holds**, with a check of the rows that are
read. -/
theorem onTable (h : Mirrors rows t store) (call : CardCall) :
    (call.onTable t).1 = (call.checked store).1 ∧
      ∃ rows', Mirrors rows' (call.onTable t).2 (call.checked store).2 := by
  cases call with
  | get card name =>
    obtain ⟨log, hget⟩ := h.get?_apply card name
    have hstore : (CardCall.checked (.get card name) store).2 = store := ite_self store
    rw [CardCall.onTable, Access.map_apply, hget, hstore]
    refine ⟨?_, rows, h.relog log⟩
    simp only [CardCall.checked, CardCall.faults, CardCall.onStore]
    rcases hvalue : store.get? card name with _ | n
    · rfl
    · simp [map_verdict]
  | set card name value cap =>
    obtain ⟨hanswer, hrows⟩ := h.set_apply card name value cap
    rw [CardCall.onTable, Access.map_apply, hanswer, map_verdict]
    exact ⟨rfl, hrows⟩
  | all card =>
    obtain ⟨log, hall⟩ := h.all_apply card
    have hstore : (CardCall.checked (.all card) store).2 = store := ite_self store
    rw [CardCall.onTable, Access.map_apply, hall, map_verdict, hstore]
    exact ⟨rfl, rows, h.relog log⟩

/-! ### Runs of calls -/

/-- **A run of calls on a table is a run on the store that it holds**, with a check of the rows that
are read. -/
theorem runCalls (h : Mirrors rows t store) (calls : List CardCall) :
    (runCalls CardCall.onTable calls t).1 = (runCalls CardCall.checked calls store).1 ∧
      ∃ rows', Mirrors rows' (Row.runCalls CardCall.onTable calls t).2
        (Row.runCalls CardCall.checked calls store).2 := by
  induction calls generalizing rows t store with
  | nil => exact ⟨rfl, rows, h⟩
  | cons call calls ih =>
    obtain ⟨hanswer, rows', hrows⟩ := h.onTable call
    obtain ⟨hanswers, hlast⟩ := ih hrows
    exact ⟨List.cons_eq_cons.2 ⟨hanswer, hanswers⟩, hlast⟩

end Mirrors

/-! ### Cards whose rows can be read -/

/-- All rows of a card can be read. -/
def Readable (store : CardStore) (card : String) : Prop :=
  ∀ name ∈ (store.attributes card).keys, rowFaults card name = []

theorem readable_empty (card : String) : Readable .empty card := by
  intro name hname
  cases hname

namespace Readable

variable {store : CardStore} {call : CardCall}

theorem faults_of_get? {card : String} (h : Readable store card) (name : String) :
    (if store.get? card name = none then [] else rowFaults card name) = [] := by
  by_cases hnone : store.get? card name = none
  · exact if_pos hnone
  · rw [if_neg hnone]
    exact h name (CardStore.mem_keys_iff.2 hnone)

theorem faults_eq_nil (h : Readable store call.card) : call.faults store = [] := by
  cases call with
  | get card name => exact h.faults_of_get? name
  | set card name value cap => exact h.faults_of_get? name
  | all card => exact firstFaults_eq_nil_iff.2 h

/-- **No call is refused** on a card whose rows can be read. -/
theorem checked_eq (h : Readable store call.card) :
    call.checked store = (.ok (call.onStore store).1, (call.onStore store).2) := by
  rw [CardCall.checked, h.faults_eq_nil, verdict_nil, if_pos rfl]

/-- A card can still be read after an attribute that fits was written to it. -/
theorem write {card card' name : String} (h : Readable store card)
    (hfits : card' = card → rowFaults card name = []) (value : Int) :
    Readable (store.write card' name value) card := by
  intro name' hname'
  by_cases hcard : card' = card
  · subst hcard
    rw [CardStore.attributes_write_self, InsertionMap.keys_put] at hname'
    split at hname'
    · exact h name' hname'
    · rcases List.mem_append.1 hname' with hold | hnew
      · exact h name' hold
      · rw [List.mem_singleton.1 hnew]
        exact hfits rfl
  · rw [CardStore.attributes_write_of_ne store hcard] at hname'
    exact h name' hname'

/-- **A card can still be read** after a call that writes only an attribute that fits. -/
theorem onStore {card : String} (h : Readable store card)
    (hfits : ∀ name value cap, call = .set card name value cap → rowFaults card name = []) :
    Readable (call.onStore store).2 card := by
  cases call with
  | get card' name => exact h
  | all card' => exact h
  | set card' name value cap =>
    simp only [CardCall.onStore, CardStore.set]
    split
    · apply h.write
      intro hcard
      subst hcard
      exact hfits name value cap rfl
    · exact h

theorem checked {card : String} (h : Readable store card)
    (hfits : ∀ name value cap, call = .set card name value cap → rowFaults card name = []) :
    Readable (call.checked store).2 card := by
  rw [CardCall.checked]
  split
  · exact h.onStore hfits
  · exact h

end Readable

/-! ### Tables and stores -/

theorem CardCall.Fits.rowFaults_eq_nil {card name : String} {value cap : Int}
    (h : (CardCall.set card name value cap).Fits) : rowFaults card name = [] :=
  rowFaults_eq_nil_iff.2 ⟨h.1, h.2 name rfl⟩

/-- A run of calls whose names fit is never refused. -/
theorem runCalls_checked {store : CardStore} (h : ∀ card, Readable store card)
    {calls : List CardCall} (hfit : ∀ call ∈ calls, call.Fits) :
    (runCalls CardCall.checked calls store).1 =
      (runCalls CardCall.onStore calls store).1.map .ok := by
  induction calls generalizing store with
  | nil => rfl
  | cons call calls ih =>
    have hcall := hfit call List.mem_cons_self
    have hnext : ∀ card, Readable (call.onStore store).2 card := by
      intro card
      apply (h card).onStore
      intro name value cap hset
      subst hset
      exact hcall.rowFaults_eq_nil
    rw [runCalls, runCalls, List.map_cons, (h call.card).checked_eq,
      ih hnext fun c hc => hfit c (List.mem_cons_of_mem call hc)]

/-- **A table cannot be told from a store in memory.**  As long as all names fit into rows, calls on
a table without rows give the same answers as calls on a store without cards, and at no time are two
rows about the same attribute of the same card. -/
theorem runCalls_refines (log : List Query) (calls : List CardCall)
    (hfit : ∀ call ∈ calls, call.Fits) :
    (runCalls CardCall.onTable calls ⟨[], log, true⟩).1 =
        (runCalls CardCall.onStore calls .empty).1.map .ok ∧
      ∀ done, done <+: calls →
        ((runCalls CardCall.onTable done ⟨[], log, true⟩).2.rows.map fun row =>
          (field? row "card_id", field? row "name")).Nodup := by
  constructor
  · rw [((mirrors_empty log).runCalls calls).1]
    exact runCalls_checked readable_empty hfit
  · intro done _
    obtain ⟨rows, hrows⟩ := ((mirrors_empty log).runCalls done).2
    exact hrows.nodup

/-- A card that may hold one attribute takes the first, refuses the second and takes a new value for
the first. -/
theorem runCalls_refines_one_attribute :
    (runCalls CardCall.onTable
        [.set "a" "hp" 5 1, .set "a" "mp" 3 1, .set "a" "hp" 7 0, .get "a" "mp", .all "a"]
        ⟨[], [], true⟩).1 =
      [.ok (.written true), .ok (.written false), .ok (.written true), .ok (.value none),
        .ok (.attributes [("hp", 7)])] := by
  rw [(runCalls_refines [] _ (by decide)).1]
  rfl

end Tabletop.Row
