import Tabletop.Proofs.Initiative.Persistence

/-!
# Turn orders and who came first

Ranks are numbers of a turn order, and no one sees them; what they stand for is who came first.  The
names of a turn order can be told from the actions alone, in the sequence in which they arrived: a
name that is there keeps its place when it gets another value, and one that was removed comes last
when it is added again.  The ranks follow this sequence, so of two entries with the same value the
one that arrived first is displayed first.

## Main definitions

* `stateAfter` — the turn order after actions one after another.
* `OrderAction.arrive`, `arrivals` — the names that are there after actions, in the sequence in
  which they arrived.
* `Orderly` — what always holds of a turn order.

## Main results

* `names_act` — an action on a ranked order does to its names what it does to the arrivals.
* `orderly_of_ranked` — a ranked order with trimmed names is orderly.
* `orderly_stateAfter` — **whatever is done to an empty order, it is orderly.**
-/

namespace Tabletop.Initiative

open Text

/-! ### Arrivals -/

/-- The turn order after actions one after another. -/
def stateAfter (actions : List OrderAction) (o : TurnOrder) : TurnOrder :=
  actions.foldl (fun o action => (action.act o).2) o

/-- The names after an action, in the sequence in which they arrived.  A name that is there stays
where it is when it is added again. -/
def OrderAction.arrive : OrderAction → List String → List String
  | .add name _, names =>
    if trim name = "" ∨ trim name ∈ names then names else names ++ [trim name]
  | .remove name, names => names.filter fun n => decide (n ≠ trim name)
  | .clear, _ => []
  | _, names => names

/-- The names that are there after actions on an empty order, in the sequence in which they
arrived. -/
def arrivals (actions : List OrderAction) : List String :=
  actions.foldl (fun names action => action.arrive names) []

@[simp] theorem stateAfter_nil (o : TurnOrder) : stateAfter [] o = o := rfl

@[simp] theorem stateAfter_cons (action : OrderAction) (actions : List OrderAction)
    (o : TurnOrder) : stateAfter (action :: actions) o = stateAfter actions (action.act o).2 := rfl

/-- A name that may be in a turn order: it is not blank, and there are no blanks around it. -/
def IsEntryName (name : String) : Prop := name ≠ "" ∧ trim name = name

theorem OrderAction.isEntryName_arrive (action : OrderAction) {names : List String}
    (h : ∀ n ∈ names, IsEntryName n) : ∀ n ∈ action.arrive names, IsEntryName n := by
  cases action with
  | add name value =>
    intro n hn
    rw [arrive] at hn
    split at hn
    · exact h n hn
    · next hnew =>
      rcases List.mem_append.1 hn with hn | hn
      · exact h n hn
      · rw [not_or] at hnew
        obtain rfl := List.mem_singleton.1 hn
        exact ⟨hnew.1, trim_trim name⟩
  | remove name =>
    intro n hn
    exact h n (List.mem_filter.1 hn).1
  | clear => exact List.forall_mem_nil _
  | advance | reload | contains _ | list | current | index | size | text => exact h

/-! ### Actions on ranked orders -/

/-- A ranked order is the same after it was stored and read again. -/
theorem act_reload_of_ranked {o : TurnOrder} (ho : o.Ranked) :
    (OrderAction.reload.act o).2 = o := by
  rw [OrderAction.act, ho.read_render]
  by_cases hlegible : o.Legible
  · rw [if_pos hlegible]
  · rw [if_neg hlegible]

theorem OrderAction.ranked_act (action : OrderAction) {o : TurnOrder} (ho : o.Ranked) :
    (action.act o).2.Ranked := by
  cases action with
  | add name value =>
    rw [act]
    rcases hadd : o.add name value with e | ⟨e, o'⟩
    · exact ho
    · exact ho.add hadd
  | remove name => exact ho.remove name
  | advance =>
    rw [act]
    rcases hadvance : o.advance with e | ⟨e, o'⟩
    · exact ho
    · exact ho.advance hadvance
  | clear => exact TurnOrder.ranked_empty
  | reload =>
    rw [act_reload_of_ranked ho]
    exact ho
  | contains _ | list | current | index | size | text => exact ho

/-- **An action on a ranked order does to its names what it does to the arrivals.** -/
theorem names_act (action : OrderAction) {o : TurnOrder} (ho : o.Ranked) :
    (action.act o).2.entries.map Entry.name = action.arrive (o.entries.map Entry.name) := by
  cases action with
  | add name value =>
    rw [OrderAction.arrive, OrderAction.act, TurnOrder.add_eq]
    by_cases hblank : trim name = ""
    · rw [if_pos hblank, if_pos (Or.inl hblank)]
    · rw [if_neg hblank]
      show (o.put (trim name) value).2.entries.map Entry.name = _
      rw [TurnOrder.map_name_entries, TurnOrder.standings_put, InsertionMap.keys_put,
        TurnOrder.map_name_entries]
      simp only [hblank, false_or]
  | remove name =>
    rw [OrderAction.arrive, OrderAction.act]
    show (o.remove name).2.entries.map Entry.name = _
    rw [TurnOrder.map_name_entries, TurnOrder.map_name_entries]
    rcases hcontains : o.contains (trim name) with _ | _
    · rw [TurnOrder.remove_of_not_contains hcontains, eq_comm, List.filter_eq_self]
      intro n hn
      rw [decide_eq_true_eq]
      rintro rfl
      rw [← InsertionMap.contains_iff_mem_keys] at hn
      rw [TurnOrder.contains, hn] at hcontains
      cases hcontains
    · rw [TurnOrder.remove_of_contains hcontains]
      exact o.standings.keys_erase (trim name)
  | advance =>
    rw [OrderAction.act]
    rcases hadvance : o.advance with e | ⟨e, o'⟩
    · rfl
    · obtain ⟨-, rfl⟩ := TurnOrder.advance_eq_ok hadvance
      rfl
  | clear => rfl
  | reload =>
    rw [act_reload_of_ranked ho]
    rfl
  | contains _ | list | current | index | size | text => rfl

/-- **What actions do to a ranked order**: it stays ranked, and its names go as the arrivals do. -/
theorem ranked_stateAfter (actions : List OrderAction) {o : TurnOrder} (ho : o.Ranked) :
    (stateAfter actions o).Ranked ∧
      (stateAfter actions o).entries.map Entry.name =
        actions.foldl (fun names action => action.arrive names) (o.entries.map Entry.name) := by
  induction actions generalizing o with
  | nil => exact ⟨ho, rfl⟩
  | cons action actions ih =>
    obtain ⟨hranked, hnames⟩ := ih (action.ranked_act ho)
    rw [names_act action ho] at hnames
    exact ⟨hranked, hnames⟩

theorem isEntryName_arrivals (actions : List OrderAction) :
    ∀ n ∈ arrivals actions, IsEntryName n := by
  have hrun : ∀ names : List String, (∀ n ∈ names, IsEntryName n) →
      ∀ n ∈ actions.foldl (fun names action => action.arrive names) names, IsEntryName n := by
    induction actions with
    | nil => exact fun names h => h
    | cons action actions ih => exact fun names h => ih _ (action.isEntryName_arrive h)
  exact hrun [] (List.forall_mem_nil _)

/-! ### What always holds -/

/-- What always holds of a turn order, given the names in the sequence in which they arrived. -/
structure Orderly (o : TurnOrder) (arrived : List String) : Prop where
  /-- These are the names of the entries. -/
  names : o.entries.map Entry.name = arrived
  /-- No name occurs twice. -/
  distinct : arrived.Nodup
  /-- No name is blank, and none has blanks around it. -/
  named : ∀ n ∈ arrived, n ≠ "" ∧ trim n = n
  /-- No rank occurs twice. -/
  ranks : (o.entries.map Entry.rank).Nodup
  /-- All ranks are below the next one. -/
  rank_lt : ∀ e ∈ o.entries, e.rank < o.nextRank
  /-- The turn is at an entry, or at the first place if there is none. -/
  placed : if o.size = 0 then o.index = 0 else o.index < o.size
  /-- All entries are displayed, and each of them once. -/
  perm : o.display.Perm o.entries
  /-- Higher values are displayed first, and of equal values lower ranks. -/
  sorted : o.display.Pairwise fun a b => b.value < a.value ∨ a.value = b.value ∧ a.rank < b.rank
  /-- Of two entries with the same value the one whose name arrived first is displayed first. -/
  ties : o.display.Pairwise fun a b =>
    a.value = b.value → arrived.idxOf a.name < arrived.idxOf b.name
  /-- A name that is there and is added again gets another value, and nothing else changes. -/
  again : ∀ name value, o.contains (trim name) = true →
    ∃ old rank o', ⟨trim name, old, rank⟩ ∈ o.entries ∧
      o.add name value = .ok (⟨trim name, value, rank⟩, o') ∧
      o'.entries = o.entries.map (TurnOrder.revalue (trim name) value) ∧
      o'.index = o.index ∧ o'.nextRank = o.nextRank
  /-- If there is an entry, exactly one is shown to have the turn. -/
  current : 0 < o.size →
    ∃ e, o.current? = some e ∧ o.slots.filter Slot.isCurrent = [⟨o.index, e, true⟩]

/-- In a ranked order ranks follow the sequence of the entries. -/
theorem idxOf_lt_of_rank_lt {o : TurnOrder} (ho : o.Ranked) {a b : Entry} (ha : a ∈ o.entries)
    (hb : b ∈ o.entries) (hlt : a.rank < b.rank) :
    (o.entries.map Entry.name).idxOf a.name < (o.entries.map Entry.name).idxOf b.name := by
  have hnodup : (o.entries.map Entry.name).Nodup := by
    rw [TurnOrder.map_name_entries]
    exact o.standings.nodup_keys
  obtain ⟨i, hi, rfl⟩ := List.getElem_of_mem ha
  obtain ⟨j, hj, rfl⟩ := List.getElem_of_mem hb
  have hindex : ∀ k (hk : k < o.entries.length),
      (o.entries.map Entry.name).idxOf o.entries[k].name = k := by
    intro k hk
    have hname := hnodup.idxOf_getElem k (by simpa using hk)
    rw [List.getElem_map] at hname
    exact hname
  rw [hindex i hi, hindex j hj]
  rcases Nat.lt_trichotomy i j with hij | rfl | hji
  · exact hij
  · omega
  · have hrank := List.pairwise_iff_getElem.1 ho.increasing j i hj hi hji
    omega

/-- One place of a list has a given number. -/
theorem filter_zipIdx {α : Type} {l : List α} {i : Nat} (h : i < l.length) (first : Nat) :
    (l.zipIdx first).filter (fun p => p.2 == first + i) = [(l[i], first + i)] := by
  induction l generalizing i first with
  | nil => simp at h
  | cons a l ih =>
    rw [List.zipIdx_cons]
    rcases i with _ | i
    · rw [List.filter_cons_of_pos (by simp), List.filter_eq_nil_iff.2]
      · rfl
      · rintro ⟨b, k⟩ hmem
        have hk := List.le_snd_of_mem_zipIdx hmem
        simp at hk ⊢
        omega
    · rw [List.filter_cons_of_neg (by simp)]
      have hrest := ih (by simpa using h) (first + 1)
      rw [Nat.add_assoc, Nat.add_comm 1 i] at hrest
      exact hrest

section Ranked

variable {o : TurnOrder}

/-- No two entries of a ranked order have the same rank. -/
theorem nodup_ranks (ho : o.Ranked) : (o.entries.map Entry.rank).Nodup := by
  rw [List.nodup_iff_pairwise_ne]
  exact ho.pairwise_ranks.imp fun hlt => Nat.ne_of_lt hlt

/-- As ranks are different, the displayed order of a ranked order is strict. -/
theorem pairwise_display_of_ranked (ho : o.Ranked) : o.display.Pairwise fun a b =>
    b.value < a.value ∨ a.value = b.value ∧ a.rank < b.rank := by
  have hne : o.display.Pairwise fun a b => a.rank ≠ b.rank := by
    rw [← List.pairwise_map, ← List.nodup_iff_pairwise_ne,
      (o.display_perm.map Entry.rank).nodup_iff]
    exact nodup_ranks ho
  refine (o.pairwise_display.and hne).imp ?_
  rintro a b ⟨hbefore, hne⟩
  simp only [TurnOrder.actsBefore, Bool.or_eq_true, Bool.and_eq_true, decide_eq_true_eq]
    at hbefore
  omega

/-- Adding a name that is there changes its value only. -/
theorem add_of_contains (hnamed : ∀ e ∈ o.entries, e.name ≠ "") {name : String}
    (hcontains : o.contains (trim name) = true) (value : Int) :
    ∃ old rank o', ⟨trim name, old, rank⟩ ∈ o.entries ∧
      o.add name value = .ok (⟨trim name, value, rank⟩, o') ∧
      o'.entries = o.entries.map (TurnOrder.revalue (trim name) value) ∧
      o'.index = o.index ∧ o'.nextRank = o.nextRank := by
  obtain ⟨s, hs⟩ := Option.isSome_iff_exists.1 hcontains
  have hmem := TurnOrder.get?_standings_iff.1 hs
  have hname : trim name ≠ "" := hnamed _ hmem
  refine ⟨s.value, s.rank, (o.put (trim name) value).2, hmem, ?_,
    TurnOrder.entries_put_of_some hs value, TurnOrder.index_put o _ _, ?_⟩
  · rw [TurnOrder.add_eq, if_neg hname, TurnOrder.put, hs]
  · rw [TurnOrder.put, hs]

/-- One slot is shown to have the turn, if the turn is at an entry. -/
theorem filter_isCurrent_slots (hlt : o.index < o.size) :
    ∃ e, o.current? = some e ∧ o.slots.filter Slot.isCurrent = [⟨o.index, e, true⟩] := by
  rw [← TurnOrder.length_display] at hlt
  have hslot := filter_zipIdx hlt 0
  rw [Nat.zero_add] at hslot
  refine ⟨o.display[o.index], List.getElem?_eq_getElem hlt, ?_⟩
  rw [TurnOrder.slots, List.filter_map]
  show (o.display.zipIdx.filter fun p => p.2 == o.index).map _ = _
  rw [hslot]
  simp

/-- **A ranked order with trimmed names is orderly.** -/
theorem orderly_of_ranked (ho : o.Ranked)
    (htrimmed : ∀ n ∈ o.entries.map Entry.name, IsEntryName n) :
    Orderly o (o.entries.map Entry.name) := by
  have hplaced := ho.placed
  have hsorted := pairwise_display_of_ranked ho
  refine
    { names := rfl
      distinct := ?_
      named := htrimmed
      ranks := nodup_ranks ho
      rank_lt := ho.rank_lt
      placed := ?_
      perm := o.display_perm
      sorted := hsorted
      ties := ?_
      again := fun _ value hcontains => add_of_contains ho.named hcontains value
      current := fun hpos => filter_isCurrent_slots (by omega) }
  · rw [TurnOrder.map_name_entries]
    exact o.standings.nodup_keys
  · split <;> omega
  · refine hsorted.imp_of_mem ?_
    intro a b ha hb hab hvalue
    exact idxOf_lt_of_rank_lt ho (TurnOrder.mem_display.1 ha) (TurnOrder.mem_display.1 hb)
      (by omega)

end Ranked

/-- **Whatever is done to an empty order, it is orderly**: its names are those that have arrived,
each of them once and without blanks around it; its ranks differ and are below the next one; the
turn is at an entry; and it is displayed by values, and among equal values by arrival. -/
theorem orderly_stateAfter (actions : List OrderAction) :
    Orderly (stateAfter actions .empty) (arrivals actions) := by
  obtain ⟨hranked, hnames⟩ := ranked_stateAfter actions TurnOrder.ranked_empty
  have hnames' : (stateAfter actions .empty).entries.map Entry.name = arrivals actions := hnames
  have horderly := orderly_of_ranked hranked (by
    rw [hnames']
    exact isEntryName_arrivals actions)
  rw [hnames'] at horderly
  exact horderly

end Tabletop.Initiative
