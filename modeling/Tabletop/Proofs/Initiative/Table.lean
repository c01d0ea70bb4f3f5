import Tabletop.Proofs.Row.Instant
import Tabletop.Row.OrderTable

/-!
# A table of turn orders is a store in memory

The text of each channel may be kept in memory or in a table.  To store a text, the table is first
asked for the row of the channel: a row that is there is updated, and otherwise one is appended.  As
long as the channels have names, there is no difference.  Each channel has one row at most, that row
can be read, and the rows stand in the order in which the map in memory lists its keys.

## Main definitions

* `DatedText` — a row, and `DatedText.cells` — how it is stored.
* `Call`, `Reply` — the calls on a store of turn orders and what they answer.
* `Call.onTable`, `Call.onMemory` — a call on a table and on a map in memory.
* `callAll` — calls one after another.
* `Mirrors` — a table holds the texts of a map.
* `rowsOfOthers` — the rows that are not about a channel.

## Main results

* `Mirrors.row?_apply` — reading the row of a channel gives its text.
* `Mirrors.onTable` — one call on a table.
* `rowsOfOthers_onTable` — a call leaves the rows of other channels.
* `callAll_onTable` — **a table cannot be told from a map in memory.**
-/

namespace Tabletop.Row.OrderTable

open Json

/-! ### One row -/

/-- A row of the table: the text of a channel, and the instant at which it was written. -/
structure DatedText where
  /-- The channel. -/
  channel : String
  /-- Its text. -/
  text : String
  /-- When the text was written. -/
  time : Instant

namespace DatedText

/-- The cells of a row. -/
def cells (r : DatedText) : Cells :=
  [("channel_id", .string r.channel), ("data", .string r.text), ("updated_at", .string r.time.text)]

/-- A row with another text. -/
def rewrite (text : String) (time : Instant) (r : DatedText) : DatedText :=
  { r with text := text, time := time }

/-- What a row says: a channel and its text. -/
def pair (r : DatedText) : String × String := (r.channel, r.text)

variable (r : DatedText)

@[simp] theorem field?_channel : field? r.cells "channel_id" = some (.string r.channel) := by
  simp [field?, cells, InsertionMap.find]

@[simp] theorem field?_data : field? r.cells "data" = some (.string r.text) := by
  simp [field?, cells, InsertionMap.find]

@[simp] theorem field?_moment : field? r.cells "updated_at" = some (.string r.time.text) := by
  simp [field?, cells, InsertionMap.find]

/-- **The row of a channel that has a name** is read back. -/
theorem ofMembers_cells (h : r.channel ≠ "") :
    OrderRow.ofMembers r.cells = .ok ⟨r.channel, r.text, true⟩ := by
  have hlength : ¬ r.channel.length < 1 := by
    rw [Nat.lt_one_iff, String.length_eq_zero_iff]
    exact h
  have hchannel : required (readText 1 none) r.cells "channel_id" = .ok r.channel :=
    required_of_read r.field?_channel (by simp [readText, hlength])
  have hdata : required (readText 0 none) r.cells "data" = .ok r.text :=
    required_of_read r.field?_data (by simp [readText])
  have hmoment : optional false readMoment r.cells "updated_at" = .ok true :=
    optional_of_read r.field?_moment r.time.readMoment_text
  rw [OrderRow.ofMembers, hchannel, hdata, hmoment]
  rfl

@[simp] theorem holds_ofChannel (channel : String) :
    (ofChannel channel).holds r.cells = (r.channel == channel) := by
  simp [Filter.holds, ofChannel]

theorem meets_ofChannel (channel : String) :
    meets [ofChannel channel] r.cells = (r.channel == channel) := by
  simp

theorem merge_cells (text : String) (time : Instant) :
    merge r.cells [("data", .string text), ("updated_at", .string time.text)] =
      (r.rewrite text time).cells := by
  simp [merge, cells, rewrite, InsertionMap.write]

end DatedText

/-! ### Calls -/

/-- A call on a store of turn orders. -/
inductive Call where
  /-- Reads the text of a channel. -/
  | get (channel : String)
  /-- Stores the text of a channel at an instant. -/
  | put (channel text : String) (time : Instant)
  /-- Removes the text of a channel. -/
  | delete (channel : String)

/-- What a call answers. -/
inductive Reply where
  /-- The text of a channel, if it has one. -/
  | text (stored : Option String)
  /-- Nothing. -/
  | done
  deriving DecidableEq, Repr

namespace Call

/-- The channel that a call is about. -/
def channel : Call → String
  | get channel => channel
  | put channel _ _ => channel
  | delete channel => channel

/-- A call on a table. -/
def onTable : Call → Table → Checked Reply × Table
  | get channel => (Reply.text <$> OrderTable.get? channel : Access Reply)
  | put channel text time =>
    ((fun _ => .done) <$> OrderTable.put time.text channel text : Access Reply)
  | delete channel => ((fun _ => .done) <$> OrderTable.deleteChannel channel : Access Reply)

/-- A call on a map in memory, which has no use for the clock. -/
def onMemory : Call → InsertionMap String String → Reply × InsertionMap String String
  | get channel, stored => (.text (stored.get? channel), stored)
  | put channel text _, stored => (.done, stored.put channel text)
  | delete channel, stored => (.done, stored.erase channel)

end Call

/-- Calls one after another, with what they answer. -/
def callAll {α σ : Type} (act : Call → σ → α × σ) : List Call → σ → List α × σ
  | [], s => ([], s)
  | call :: calls, s =>
    ((act call s).1 :: (callAll act calls (act call s).2).1,
      (callAll act calls (act call s).2).2)

theorem callAll_append_snd {α σ : Type} (act : Call → σ → α × σ) (before after : List Call)
    (s : σ) :
    (callAll act (before ++ after) s).2 = (callAll act after (callAll act before s).2).2 := by
  induction before generalizing s with
  | nil => rfl
  | cons call before ih => exact ih (act call s).2

/-! ### Tables that hold a map -/

/-- A table holds the texts of a map: its rows say what the map lists, and each can be read. -/
structure Mirrors (rows : List DatedText) (t : Table) (stored : InsertionMap String String) :
    Prop where
  cells : t.rows = rows.map DatedText.cells
  pairs : rows.map DatedText.pair = stored.toList
  named : ∀ r ∈ rows, r.channel ≠ ""

theorem mirrors_empty (log : List Query) (counts : Bool) : Mirrors [] ⟨[], log, counts⟩ .empty where
  cells := rfl
  pairs := rfl
  named := List.forall_mem_nil _

/-- The first row about a channel gives its text. -/
theorem find_pair (channel : String) (rows : List DatedText) :
    InsertionMap.find channel (rows.map DatedText.pair) =
      ((rows.filter fun r => r.channel == channel).head?).map DatedText.text := by
  induction rows with
  | nil => rfl
  | cons r rows ih =>
    by_cases hchannel : r.channel = channel
    · simp [InsertionMap.find, DatedText.pair, hchannel]
    · simp [InsertionMap.find, DatedText.pair, hchannel] at ih ⊢
      exact ih

namespace Mirrors

variable {rows : List DatedText} {t : Table} {stored : InsertionMap String String}

/-- Queries that only look leave what the table holds. -/
theorem relog (h : Mirrors rows t stored) (log : List Query) :
    Mirrors rows { t with log := log } stored where
  cells := h.cells
  pairs := h.pairs
  named := h.named

theorem mem_keys_iff (h : Mirrors rows t stored) {channel : String} :
    channel ∈ stored.keys ↔ ∃ r ∈ rows, r.channel = channel := by
  rw [InsertionMap.keys, ← h.pairs, List.map_map]
  exact List.mem_map

/-- **No two rows are about the same channel.** -/
theorem nodup (h : Mirrors rows t stored) :
    (t.rows.map fun row => field? row "channel_id").Nodup := by
  have hrows : (rows.map DatedText.channel).Nodup := by
    have hkeys := stored.distinct
    rw [← h.pairs, List.map_map] at hkeys
    exact hkeys
  rw [h.cells, List.map_map]
  refine List.Pairwise.map _ (fun r r' hne hsame => hne ?_) (List.pairwise_map.1 hrows)
  simpa using hsame

theorem filter_ofChannel (h : Mirrors rows t stored) (channel : String) :
    t.rows.filter (meets [ofChannel channel]) =
      (rows.filter fun r => r.channel == channel).map DatedText.cells := by
  rw [h.cells, List.filter_map]
  exact congrArg _ (List.filter_congr fun r _ => r.meets_ofChannel channel)

/-- **Reading the row of a channel** gives its text. -/
theorem row?_apply (h : Mirrors rows t stored) (channel : String) :
    ∃ log row, OrderTable.row? channel t = (.ok row, { t with log := log }) ∧
      row.map OrderRow.data = stored.get? channel := by
  have hvalue : stored.get? channel =
      ((rows.filter fun r => r.channel == channel).head?).map DatedText.text := by
    rw [← find_pair, h.pairs]
    rfl
  refine ⟨t.log ++ [⟨.select "*", [ofChannel channel]⟩], ?_⟩
  rw [hvalue, OrderTable.row?, Access.bind_apply, select_apply, h.filter_ofChannel]
  cases hfound : rows.filter fun r => r.channel == channel with
  | nil => exact ⟨none, rfl, rfl⟩
  | cons r rest =>
    have hr : r ∈ rows := (List.mem_filter.1 (hfound ▸ List.mem_cons_self)).1
    simp only [List.map_cons, Access.map_apply, accept_apply, r.ofMembers_cells (h.named r hr)]
    exact ⟨_, rfl, rfl⟩

/-- Storing another text for a channel that has one rewrites its row in its place. -/
theorem update (h : Mirrors rows t stored) {channel : String} (hthere : channel ∈ stored.keys)
    (text : String) (time : Instant) (log : List Query) :
    Mirrors (rows.map fun r => if r.channel == channel then r.rewrite text time else r)
      { t with
        rows := t.rows.map fun row =>
          if meets [ofChannel channel] row then
            merge row [("data", .string text), ("updated_at", .string time.text)]
          else row
        log := log }
      (stored.put channel text) where
  cells := by
    rw [h.cells, List.map_map, List.map_map]
    refine List.map_congr_left fun r _ => ?_
    simp only [Function.comp_apply, r.meets_ofChannel, r.merge_cells]
    split
    · rfl
    · rfl
  pairs := by
    -- Both rewrite in place whatever is about the channel.
    show _ = InsertionMap.write channel text stored.toList
    rw [InsertionMap.write_of_mem stored.distinct hthere, ← h.pairs, List.map_map, List.map_map]
    refine List.map_congr_left fun r _ => ?_
    by_cases hchannel : r.channel = channel
    · simp [DatedText.pair, DatedText.rewrite, hchannel]
    · simp [DatedText.pair, hchannel]
  named := by
    intro r hr
    obtain ⟨r', hr', rfl⟩ := List.mem_map.1 hr
    split
    · exact h.named r' hr'
    · exact h.named r' hr'

/-- Storing the first text of a channel appends a row. -/
theorem insert (h : Mirrors rows t stored) {r : DatedText} (hname : r.channel ≠ "")
    (hnew : r.channel ∉ stored.keys) (log : List Query) :
    Mirrors (rows ++ [r]) { t with rows := t.rows ++ [r.cells], log := log }
      (stored.put r.channel r.text) where
  cells := by
    rw [h.cells, List.map_append]
    rfl
  pairs := by
    show _ = InsertionMap.write r.channel r.text stored.toList
    rw [InsertionMap.write_of_notMem hnew, ← h.pairs, List.map_append]
    rfl
  named := by
    intro r' hr'
    rcases List.mem_append.1 hr' with hold | hlast
    · exact h.named r' hold
    · rw [List.mem_singleton.1 hlast]
      exact hname

/-- Removing the text of a channel removes its row. -/
theorem delete (h : Mirrors rows t stored) (channel : String) (log : List Query) :
    Mirrors (rows.filter fun r => r.channel ≠ channel)
      { t with rows := t.rows.filter fun row => !meets [ofChannel channel] row, log := log }
      (stored.erase channel) where
  cells := by
    rw [h.cells, List.filter_map]
    refine congrArg _ (List.filter_congr fun r _ => ?_)
    by_cases hchannel : r.channel = channel
    · simp [hchannel]
    · simp [hchannel]
  pairs := by
    show _ = stored.toList.filter fun p => p.1 ≠ channel
    rw [← h.pairs, List.filter_map]
    rfl
  named := by
    intro r hr
    exact h.named r (List.mem_filter.1 hr).1

/-- **A call on a table is a call on the map that it holds.** -/
theorem onTable (h : Mirrors rows t stored) (call : Call) (hname : call.channel ≠ "") :
    (call.onTable t).1 = .ok (call.onMemory stored).1 ∧
      ∃ rows', Mirrors rows' (call.onTable t).2 (call.onMemory stored).2 := by
  cases call with
  | get channel =>
    obtain ⟨log, row, hrow, htext⟩ := h.row?_apply channel
    rw [Call.onTable, Access.map_apply, OrderTable.get?, Access.bind_apply, hrow]
    exact ⟨by rw [Call.onMemory, ← htext]; rfl, rows, h.relog log⟩
  | put channel text time =>
    -- Whether there is a row decides between an update and an insertion.
    obtain ⟨log, row, hrow, htext⟩ := h.row?_apply channel
    rw [Call.onTable, Access.map_apply, OrderTable.put, Access.bind_apply, hrow]
    cases row with
    | none =>
      have hnew : channel ∉ stored.keys := by
        rw [← stored.contains_iff_mem_keys, InsertionMap.contains, ← htext]
        exact Bool.false_ne_true
      exact ⟨rfl, _, h.insert (r := ⟨channel, text, time⟩) hname hnew _⟩
    | some row =>
      have hthere : channel ∈ stored.keys := by
        rw [← stored.contains_iff_mem_keys, InsertionMap.contains, ← htext]
        rfl
      exact ⟨rfl, _, h.update hthere text time _⟩
  | delete channel => exact ⟨rfl, _, h.delete channel _⟩

/-- **A run of calls on a table is a run on the map that it holds.** -/
theorem callAll (h : Mirrors rows t stored) {calls : List Call}
    (hnamed : ∀ call ∈ calls, call.channel ≠ "") :
    (callAll Call.onTable calls t).1 = (callAll Call.onMemory calls stored).1.map .ok ∧
      ∃ rows', Mirrors rows' (OrderTable.callAll Call.onTable calls t).2
        (OrderTable.callAll Call.onMemory calls stored).2 := by
  induction calls generalizing rows t stored with
  | nil => exact ⟨rfl, rows, h⟩
  | cons call calls ih =>
    rw [List.forall_mem_cons] at hnamed
    obtain ⟨hanswer, rows', hrows⟩ := h.onTable call hnamed.1
    obtain ⟨hanswers, hlast⟩ := ih hrows hnamed.2
    exact ⟨List.cons_eq_cons.2 ⟨hanswer, hanswers⟩, hlast⟩

end Mirrors

/-! ### The rows of other channels -/

/-- The rows that are not about a channel. -/
def rowsOfOthers (channel : String) (rows : List Cells) : List Cells :=
  rows.filter fun row => !meets [ofChannel channel] row

section Others

variable (channel : String)

/-- A new text and a new moment do not move a row to another channel. -/
theorem meets_merge (row : Cells) (text moment : Value) :
    meets [ofChannel channel] (merge row [("data", text), ("updated_at", moment)]) =
      meets [ofChannel channel] row := by
  have hfield : field? (merge row [("data", text), ("updated_at", moment)]) "channel_id" =
      field? row "channel_id" := by
    simp [field?, merge, InsertionMap.find_write]
  simp [Filter.holds, ofChannel, hfield]

theorem rowsOfOthers_update (rows : List Cells) (text moment : Value) :
    rowsOfOthers channel (rows.map fun row =>
        if meets [ofChannel channel] row then
          merge row [("data", text), ("updated_at", moment)]
        else row) =
      rowsOfOthers channel rows := by
  induction rows with
  | nil => rfl
  | cons row rows ih =>
    rw [rowsOfOthers] at ih ⊢
    rcases hrow : meets [ofChannel channel] row with _ | _
    · simp only [List.map_cons, List.filter_cons, hrow, ih, rowsOfOthers, Bool.false_eq_true,
        if_false]
    · simp only [List.map_cons, List.filter_cons, hrow, ih, rowsOfOthers, meets_merge, if_true,
        Bool.not_true, Bool.false_eq_true, if_false]

theorem rowsOfOthers_insert (rows : List Cells) (text moment : String) :
    rowsOfOthers channel (rows ++
        [[("channel_id", .string channel), ("data", .string text),
          ("updated_at", .string moment)]]) =
      rowsOfOthers channel rows := by
  simp [rowsOfOthers, Filter.holds, ofChannel, field?, InsertionMap.find]

theorem rowsOfOthers_delete (rows : List Cells) :
    rowsOfOthers channel (rows.filter fun row => !meets [ofChannel channel] row) =
      rowsOfOthers channel rows := by
  simp [rowsOfOthers]

/-- Reading a row changes no row, even if that row does not fit. -/
theorem row?_rows (t : Table) : (OrderTable.row? channel t).2.rows = t.rows := by
  rw [OrderTable.row?, Access.bind_apply, select_apply]
  cases t.rows.filter (meets [ofChannel channel]) with
  | nil => rfl
  | cons row rest => simp only [Access.map_apply, accept_apply]

end Others

/-- **A call leaves the rows of other channels as they are**, whatever the table holds. -/
theorem rowsOfOthers_onTable (call : Call) (t : Table) :
    rowsOfOthers call.channel (call.onTable t).2.rows = rowsOfOthers call.channel t.rows := by
  cases call with
  | get channel =>
    have hrows := row?_rows channel t
    rw [Call.onTable, Access.map_apply, OrderTable.get?, Access.bind_apply]
    rcases hrow : OrderTable.row? channel t with ⟨e | row, t'⟩
    · rw [hrow] at hrows
      exact congrArg _ hrows
    · rw [hrow] at hrows
      exact congrArg _ hrows
  | put channel text time =>
    -- The row that is looked at first may not fit, and then nothing is written.
    have hrows := row?_rows channel t
    rw [Call.onTable, Access.map_apply, OrderTable.put, Access.bind_apply]
    rcases hrow : OrderTable.row? channel t with ⟨e | row, t'⟩
    · rw [hrow] at hrows
      exact congrArg _ hrows
    · rw [hrow] at hrows
      rw [← hrows]
      cases row with
      | none => exact rowsOfOthers_insert channel t'.rows text time.text
      | some row => exact rowsOfOthers_update channel t'.rows _ _
  | delete channel => exact rowsOfOthers_delete channel t.rows

/-! ### Tables and maps -/

/-- The table after a run of calls, if it had no rows before. -/
def tableAfter (log : List Query) (counts : Bool) (calls : List Call) : Table :=
  (callAll Call.onTable calls ⟨[], log, counts⟩).2

/-- **A table cannot be told from a map in memory.**  As long as all channels have names, calls on a
table without rows give the same answers as calls on an empty map.  At no time are two rows about
the same channel, and no call changes, moves or removes a row of another channel. -/
theorem callAll_onTable (log : List Query) (counts : Bool) (calls : List Call)
    (hnamed : ∀ call ∈ calls, call.channel ≠ "") :
    (callAll Call.onTable calls ⟨[], log, counts⟩).1 =
        (callAll Call.onMemory calls .empty).1.map .ok ∧
      (∀ done, done <+: calls →
        ((tableAfter log counts done).rows.map fun row => field? row "channel_id").Nodup) ∧
      ∀ done call, done ++ [call] <+: calls →
        rowsOfOthers call.channel (tableAfter log counts (done ++ [call])).rows =
          rowsOfOthers call.channel (tableAfter log counts done).rows := by
  refine ⟨((mirrors_empty log counts).callAll hnamed).1, ?_, ?_⟩
  · intro done hdone
    obtain ⟨rows, hrows⟩ :=
      ((mirrors_empty log counts).callAll fun call hcall => hnamed call (hdone.subset hcall)).2
    exact hrows.nodup
  · intro done call _
    rw [tableAfter, callAll_append_snd]
    exact rowsOfOthers_onTable call _

/-- The first minute of a century. -/
def century : Instant where
  year := 2000
  month := 1
  day := 1
  hour := 0
  minute := 0
  second := 0
  micro := 0
  year_bounds := by decide
  month_bounds := by decide
  day_bounds := by decide
  hour_le := by decide
  minute_le := by decide
  second_le := by decide
  micro_lt := by decide

/-- Two channels: the text of the first is replaced and read, that of the second is removed. -/
theorem callAll_onTable_two_channels :
    (callAll Call.onTable
        [.put "a" "1" century, .put "b" "2" century, .put "a" "3" century, .delete "b", .get "a",
          .get "b"] ⟨[], [], true⟩).1 =
      [.ok .done, .ok .done, .ok .done, .ok .done, .ok (.text (some "3")), .ok (.text none)] := by
  rw [(callAll_onTable [] true _ (by decide)).1]
  rfl

end Tabletop.Row.OrderTable
