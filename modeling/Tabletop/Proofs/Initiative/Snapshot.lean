import Tabletop.Initiative.Snapshot
import Tabletop.Proofs.Json.RoundTrip

/-!
# Reading a stored turn order

The text of a turn order holds its entries by rank.  Reading it gives an order with the same
standings, the same place of the turn and the same next rank, in which the entries are listed by
rank.

## Main definitions

* `Entry.toPair` — an entry as a name with its standing.
* `TurnOrder.Storable` — the orders whose text gives them back.
* `TurnOrder.Legible` — the orders whose text can be read at all.
* `TurnOrder.byRank` — the order with its entries listed by rank.

## Main results

* `Snapshot.ofValue_toValue` — a snapshot is read from its JSON value.
* `addEntries_eq_ok` — entries with different names are added one after another.
* `TurnOrder.read_toValue` — a snapshot is read from its text.
* `TurnOrder.read_render` — **a storable order is read from its text.**
-/

namespace Tabletop.Initiative

open Json Row

/-! ### Snapshots as JSON values -/

theorem one_le_length {s : String} (hs : s ≠ "") : 1 ≤ s.length := by
  rw [← String.length_toList]
  rcases hcs : s.toList with _ | ⟨c, cs⟩
  · exact absurd (String.toList_eq_nil_iff.1 hcs) hs
  · exact Nat.le_add_left 1 cs.length

theorem readText_string {s : String} (hs : s ≠ "") : readText 1 none (.string s) = .ok s := by
  have hlen : ¬s.length < 1 := Nat.not_lt.2 (one_le_length hs)
  simp only [readText, if_neg hlen]

theorem readNatural_int (n : Nat) : readNatural (.int n) = .ok n := by
  have hnonneg : ¬(n : Int) < 0 := by omega
  show ((if (n : Int) < 0 then Except.error FaultKind.tooSmall else Except.ok (n : Int)).map _) = _
  rw [if_neg hnonneg]
  rfl

theorem Entry.ofValue_toValue {e : Entry} (he : e.name ≠ "") : Entry.ofValue e.toValue = .ok e := by
  have hname : field? [("name", .string e.name), ("value", .int e.value),
      ("insertion_seq", .int e.rank)] "name" = some (.string e.name) := rfl
  have hvalue : field? [("name", .string e.name), ("value", .int e.value),
      ("insertion_seq", .int e.rank)] "value" = some (.int e.value) := rfl
  have hrank : field? [("name", .string e.name), ("value", .int e.value),
      ("insertion_seq", .int e.rank)] "insertion_seq" = some (.int e.rank) := rfl
  simp only [toValue, ofValue, required, hname, hvalue, hrank, readText_string he, readInteger,
    readNatural_int, Except.mapError, both, Except.map]

theorem readAll_map_toValue {es : List Entry} (hes : ∀ e ∈ es, e.name ≠ "") :
    readAll Entry.ofValue (es.map Entry.toValue) = .ok es := by
  induction es with
  | nil => rfl
  | cons e es ih =>
    have hrest := ih fun d hd => hes d (List.mem_cons_of_mem e hd)
    rw [List.map_cons, readAll, Entry.ofValue_toValue (hes e List.mem_cons_self), hrest]
    rfl

/-- **A snapshot is read from its JSON value.** -/
theorem Snapshot.ofValue_toValue {s : Snapshot} (hs : ∀ e ∈ s.entries, e.name ≠ "") :
    Snapshot.ofValue s.toValue = .ok s := by
  let members : List (String × Value) :=
    [("version", .int 1), ("entries", .array (s.entries.map Entry.toValue)),
      ("current_index", .int s.index), ("next_seq", .int s.nextRank)]
  have hversion : field? members "version" = some (.int 1) := rfl
  have hentries : field? members "entries" = some (.array (s.entries.map Entry.toValue)) := rfl
  have hindex : field? members "current_index" = some (.int s.index) := rfl
  have hnext : field? members "next_seq" = some (.int s.nextRank) := rfl
  show Snapshot.ofValue (.object members) = .ok s
  simp only [ofValue, Row.optional, readEntries, hversion, hentries, hindex, hnext,
    readAll_map_toValue hs, readInteger, readNatural_int, Except.mapError, both, Except.map]

theorem Entry.isPlain_toValue (e : Entry) : e.toValue.IsPlain := by
  refine ⟨?_, trivial, trivial, trivial, trivial⟩
  show ["name", "value", "insertion_seq"].Nodup
  decide

theorem arePlain_map_toValue (es : List Entry) : ArePlain (es.map Entry.toValue) := by
  induction es with
  | nil => trivial
  | cons e es ih => exact ⟨e.isPlain_toValue, ih⟩

theorem Snapshot.isPlain_toValue (s : Snapshot) : s.toValue.IsPlain := by
  refine ⟨?_, trivial, arePlain_map_toValue s.entries, trivial, trivial, trivial⟩
  show ["version", "entries", "current_index", "next_seq"].Nodup
  decide

theorem areShort_map_toValue (es : List Entry) :
    areShort (es.map Entry.toValue) = es.all fun e => IsShort e.value && IsShort e.rank := by
  induction es with
  | nil => rfl
  | cons e es ih =>
    rw [List.map_cons, areShort, ih, List.all_cons]
    simp only [Entry.toValue, Value.isShort, haveShort, Bool.true_and, Bool.and_true]

/-- All integers of a snapshot are short if its own are, and those of its entries. -/
theorem Snapshot.isShort_toValue (s : Snapshot) :
    s.toValue.isShort =
      ((s.entries.all fun e => IsShort e.value && IsShort e.rank) &&
        (IsShort s.index && IsShort s.nextRank)) := by
  have hone : decide (IsShort 1) = true := by decide
  simp only [toValue, Value.isShort, haveShort, areShort_map_toValue, hone, Bool.true_and,
    Bool.and_true]

theorem itemsDepth_map_toValue_le (es : List Entry) : itemsDepth (es.map Entry.toValue) ≤ 1 := by
  induction es with
  | nil => exact Nat.zero_le 1
  | cons e es ih =>
    have he : e.toValue.depth = 1 := rfl
    rw [List.map_cons, itemsDepth, he]
    omega

/-- A snapshot is an object with an array of objects. -/
theorem Snapshot.depth_toValue_le (s : Snapshot) : s.toValue.depth ≤ 3 := by
  have hentries := itemsDepth_map_toValue_le s.entries
  simp only [toValue, Value.depth, membersDepth]
  omega

/-! ### Restoring -/

/-- An entry as a name with its standing. -/
def Entry.toPair (e : Entry) : String × Standing := (e.name, ⟨e.value, e.rank⟩)

/-- **Entries with different names are added one after another.** -/
theorem addEntries_eq_ok {es : List Entry} {m : InsertionMap String Standing}
    (h : (m.keys ++ es.map Entry.name).Nodup) :
    ∃ m', addEntries m es = .ok m' ∧ m'.toList = m.toList ++ es.map Entry.toPair := by
  induction es generalizing m with
  | nil => exact ⟨m, rfl, (List.append_nil _).symm⟩
  | cons e es ih =>
    have hnew : e.name ∉ m.keys := by
      rw [List.map_cons, List.nodup_append] at h
      exact fun hk => h.2.2 e.name hk e.name List.mem_cons_self rfl
    have hcontains : ¬m.contains e.name = true :=
      fun hc => hnew ((m.contains_iff_mem_keys e.name).1 hc)
    have hkeys : (m.put e.name ⟨e.value, e.rank⟩).keys = m.keys ++ [e.name] := by
      rw [InsertionMap.keys_put, if_neg hnew]
    have hlist : (m.put e.name ⟨e.value, e.rank⟩).toList = m.toList ++ [e.toPair] :=
      InsertionMap.write_of_notMem hnew _
    obtain ⟨m', hm', hm'list⟩ := ih (m := m.put e.name ⟨e.value, e.rank⟩) (by
      rw [hkeys, List.append_assoc]
      exact h)
    refine ⟨m', ?_, ?_⟩
    · rw [addEntries, if_neg hcontains]
      exact hm'
    · rw [hm'list, hlist, List.append_assoc]
      rfl

theorem foldl_rank_le {es : List Entry} {k n : Nat} (hk : k ≤ n) (h : ∀ e ∈ es, e.rank < n) :
    es.foldl (fun m e => max m (e.rank + 1)) k ≤ n := by
  induction es generalizing k with
  | nil => exact hk
  | cons e es ih =>
    rw [List.forall_mem_cons] at h
    exact ih (Nat.max_le.2 ⟨hk, h.1⟩) h.2

theorem rankBound_le {es : List Entry} {n : Nat} (h : ∀ e ∈ es, e.rank < n) :
    rankBound es ≤ n := foldl_rank_le (Nat.zero_le n) h

/-! ### Turn orders -/

namespace TurnOrder

/-- The orders whose text gives them back: every entry has a name, all ranks are below the next
one, and the turn is at an entry. -/
structure Storable (o : TurnOrder) : Prop where
  named : ∀ e ∈ o.entries, e.name ≠ ""
  rank_lt : ∀ e ∈ o.entries, e.rank < o.nextRank
  placed : o.index = 0 ∨ o.index < o.size

/-- No number of the order is too long for a JSON text that can be read. -/
def Legible (o : TurnOrder) : Prop :=
  (∀ e ∈ o.entries, IsShort e.value ∧ IsShort e.rank) ∧ IsShort o.index ∧ IsShort o.nextRank

instance (o : TurnOrder) : Decidable o.Legible := inferInstanceAs (Decidable (_ ∧ _))

theorem snapshot_entries_perm (o : TurnOrder) : o.snapshot.entries.Perm o.entries :=
  List.mergeSort_perm _ _

/-- The order with its entries listed by rank. -/
def byRank (o : TurnOrder) : TurnOrder where
  standings :=
    { toList := o.snapshot.entries.map Entry.toPair
      distinct := by
        have hnames : (o.snapshot.entries.map Entry.name).Nodup :=
          (o.snapshot_entries_perm.map Entry.name).nodup_iff.2
            (o.map_name_entries ▸ o.standings.nodup_keys)
        rw [List.map_map]
        exact hnames }
  index := o.index
  nextRank := o.nextRank

theorem entries_byRank (o : TurnOrder) : o.byRank.entries = o.snapshot.entries := by
  show (o.snapshot.entries.map Entry.toPair).map _ = _
  rw [List.map_map]
  exact List.map_id _

/-- An order whose entries are listed by rank stays as it is. -/
theorem byRank_of_pairwise {o : TurnOrder}
    (h : o.entries.Pairwise fun a b => a.rank ≤ b.rank) : o.byRank = o := by
  have hsnapshot : o.snapshot.entries = o.entries :=
    List.mergeSort_of_pairwise (h.imp fun hab => decide_eq_true hab)
  have hlist : o.byRank.standings.toList = o.standings.toList := by
    show o.snapshot.entries.map Entry.toPair = _
    rw [hsnapshot, entries, List.map_map]
    exact List.map_id _
  rcases o with ⟨⟨l, hl⟩, index, nextRank⟩
  simp only [byRank, TurnOrder.mk.injEq, and_true]
  exact InsertionMap.mk.injEq _ _ _ _ ▸ hlist

section Read

variable {o : TurnOrder}

theorem mem_entries_of_snapshot {e : Entry} (he : e ∈ o.snapshot.entries) : e ∈ o.entries :=
  o.snapshot_entries_perm.mem_iff.1 he

theorem length_snapshot_entries : o.snapshot.entries.length = o.size := by
  rw [o.snapshot_entries_perm.length_eq, length_entries]

theorem addEntries_snapshot : addEntries .empty o.snapshot.entries = .ok o.byRank.standings := by
  have hnodup : ((InsertionMap.empty : InsertionMap String Standing).keys ++
      o.snapshot.entries.map Entry.name).Nodup := by
    have hkeys := o.byRank.standings.nodup_keys
    rw [← map_name_entries, entries_byRank] at hkeys
    exact hkeys
  obtain ⟨m, hm, hmlist⟩ := addEntries_eq_ok hnodup
  have hstandings : m = o.byRank.standings := by
    rcases m with ⟨l, hl⟩
    exact (InsertionMap.mk.injEq _ _ _ _).symm ▸ hmlist
  rw [hm, hstandings]

/-- The turn stays where it is: it is at an entry, so no place is skipped. -/
theorem index_restored (h : o.index = 0 ∨ o.index < o.size) :
    (if o.snapshot.entries.isEmpty then 0 else o.index % o.snapshot.entries.length) = o.index := by
  rcases h with hzero | hlt
  · rw [hzero, Nat.zero_mod, ite_self]
  · have hne : ¬o.snapshot.entries.isEmpty = true := by
      rw [List.isEmpty_iff_length_eq_zero, length_snapshot_entries]
      omega
    rw [if_neg hne, length_snapshot_entries, Nat.mod_eq_of_lt hlt]

theorem restore_snapshot (h : o.Storable) : o.snapshot.restore = .ok o.byRank := by
  have hnext : max o.nextRank (rankBound o.snapshot.entries) = o.nextRank :=
    Nat.max_eq_left (rankBound_le fun e he => h.rank_lt e (mem_entries_of_snapshot he))
  rw [Snapshot.restore, addEntries_snapshot]
  show Except.ok (TurnOrder.mk o.byRank.standings
    (if o.snapshot.entries.isEmpty then 0 else o.index % o.snapshot.entries.length)
    (max o.nextRank (rankBound o.snapshot.entries))) = _
  rw [index_restored h.placed, hnext]
  rfl

theorem isShort_snapshot : o.snapshot.toValue.isShort = decide o.Legible := by
  rw [Snapshot.isShort_toValue, Bool.eq_iff_iff, decide_eq_true_eq]
  simp only [Bool.and_eq_true, List.all_eq_true, decide_eq_true_eq]
  -- The snapshot has the entries of the order in another sequence.
  refine and_congr_left fun _ => ?_
  exact forall_congr' fun e => by rw [o.snapshot_entries_perm.mem_iff]

/-- The error of a text that cannot be read. -/
def unreadable : Error := .format (.snapshot 1)

/-- The text of a snapshot is read as that snapshot, if its entries have names, unless one of its
numbers is too long. -/
theorem read_toValue {s : Snapshot} (hs : ∀ e ∈ s.entries, e.name ≠ "") :
    TurnOrder.read s.toValue.render =
      if s.toValue.isShort then s.restore else .error unreadable := by
  have hdepth : s.toValue.depth ≤ maxNesting := Nat.le_trans s.depth_toValue_le (by decide)
  rw [TurnOrder.read, read?_render s.isPlain_toValue hdepth]
  cases s.toValue.isShort with
  | true => simp only [if_true, Snapshot.ofValue_toValue hs]
  | false => rfl

/-- **A storable order is read from its text**, with its entries listed by rank, unless one of its
numbers is too long. -/
theorem read_render (h : o.Storable) :
    TurnOrder.read o.render = if o.Legible then .ok o.byRank else .error unreadable := by
  rw [TurnOrder.render, read_toValue fun e he => h.named e (mem_entries_of_snapshot he),
    isShort_snapshot, restore_snapshot h]
  simp only [decide_eq_true_eq]

end Read

end TurnOrder

end Tabletop.Initiative
