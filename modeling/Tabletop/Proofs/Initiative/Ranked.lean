import Tabletop.Proofs.Initiative.Snapshot

/-!
# Turn orders that grew from the empty one

A turn order that was built by operations lists its entries by rank, because a new entry gets the
next rank and goes to the end, and a name that is there keeps both its rank and its place.

## Main definitions

* `TurnOrder.Ranked` — what the operations preserve.

## Main results

* `Storable.add`, `Storable.remove`, `Storable.advance` — each operation keeps an order storable.
* `Ranked.add`, `Ranked.remove`, `Ranked.advance` — each operation keeps an order ranked.
* `Ranked.read_render` — **such an order is read from its text just as it is**, unless one of its
  numbers is too long.
-/

namespace Tabletop.Initiative

open Json

namespace TurnOrder

/-- The orders that operations build from the empty one: the entries have names and are listed by
rank, all ranks are below the next one, and the turn is at an entry. -/
structure Ranked (o : TurnOrder) : Prop where
  increasing : o.entries.Pairwise fun a b => a.rank < b.rank
  rank_lt : ∀ e ∈ o.entries, e.rank < o.nextRank
  named : ∀ e ∈ o.entries, e.name ≠ ""
  placed : o.index = 0 ∨ o.index < o.size

theorem Ranked.storable {o : TurnOrder} (ho : o.Ranked) : o.Storable :=
  ⟨ho.named, ho.rank_lt, ho.placed⟩

theorem storable_empty : Storable empty where
  named := fun _ h => by cases h
  rank_lt := fun _ h => by cases h
  placed := Or.inl rfl

theorem ranked_empty : Ranked empty where
  increasing := List.Pairwise.nil
  rank_lt := storable_empty.rank_lt
  named := storable_empty.named
  placed := storable_empty.placed

/-! ### Giving a name a value -/

/-- The entry of a name that was given a value. -/
theorem fst_put (o : TurnOrder) (name : String) (value : Int) :
    (o.put name value).1 = ⟨name, value, (o.put name value).1.rank⟩ := by
  unfold put
  split
  · rfl
  · rfl

theorem standings_put (o : TurnOrder) (name : String) (value : Int) :
    (o.put name value).2.standings =
      o.standings.put name ⟨value, (o.put name value).1.rank⟩ := by
  unfold put
  split
  · rfl
  · rfl

/-- An entry after a name was given a value is the new one, or was there before. -/
theorem mem_entries_put {o : TurnOrder} {name : String} {value : Int} {e : Entry}
    (h : e ∈ (o.put name value).2.entries) : e = (o.put name value).1 ∨ e ∈ o.entries := by
  rw [entries, standings_put] at h
  obtain ⟨p, hp, rfl⟩ := List.mem_map.1 h
  rcases InsertionMap.mem_write hp with rfl | hp
  · exact Or.inl (fst_put o name value).symm
  · exact Or.inr (List.mem_map.2 ⟨p, hp, rfl⟩)

theorem size_le_size_put (o : TurnOrder) (name : String) (value : Int) :
    o.size ≤ (o.put name value).2.size := by
  rw [size, size, standings_put, InsertionMap.size_put]
  split
  · exact Nat.le_refl _
  · exact Nat.le_succ _

/-- An order to which a name was given is not empty. -/
theorem size_put_pos (o : TurnOrder) (name : String) (value : Int) :
    0 < (o.put name value).2.size := by
  have hmem : name ∈ (o.put name value).2.standings.keys := by
    rw [← InsertionMap.contains_iff_mem_keys, InsertionMap.contains, get?_standings_put]
    rfl
  have hlen := List.length_pos_of_mem hmem
  rw [InsertionMap.length_keys] at hlen
  exact hlen

/-- Writing a standing of the same rank to a name that is there keeps the list of ranks. -/
theorem map_rank_write {l : List (String × Standing)} {name : String} {s : Standing}
    (h : InsertionMap.find name l = some s) (value : Int) :
    (InsertionMap.write name ⟨value, s.rank⟩ l).map (fun p => p.2.rank) =
      l.map fun p => p.2.rank := by
  induction l with
  | nil => cases h
  | cons p l ih =>
    obtain ⟨k, t⟩ := p
    rw [InsertionMap.find] at h
    rw [InsertionMap.write]
    by_cases hk : k = name
    · rw [if_pos hk, Option.some.injEq] at h
      rw [if_pos hk, List.map_cons, List.map_cons, h]
    · rw [if_neg hk] at h
      rw [if_neg hk, List.map_cons, List.map_cons, ih h]

/-- The ranks of the entries, in their order. -/
def ranks (o : TurnOrder) : List Nat := o.entries.map Entry.rank

theorem ranks_eq (o : TurnOrder) : o.ranks = o.standings.toList.map fun p => p.2.rank := by
  rw [ranks, entries, List.map_map]
  rfl

/-- **The ranks after a name was given a value**: they stay as they are if the name is there, and
else the next rank comes to them as the last one. -/
theorem ranks_put (o : TurnOrder) (name : String) (value : Int) :
    ((o.put name value).2.ranks = o.ranks ∧ (o.put name value).2.nextRank = o.nextRank) ∨
      ((o.put name value).2.ranks = o.ranks ++ [o.nextRank] ∧
        (o.put name value).2.nextRank = o.nextRank + 1) := by
  rw [ranks_eq, ranks_eq]
  unfold put
  rcases hs : o.standings.get? name with _ | s
  · have hnew : name ∉ o.standings.toList.map Prod.fst := by
      intro hmem
      rw [← InsertionMap.isSome_find_iff, ← InsertionMap.get?, hs] at hmem
      cases hmem
    refine Or.inr ⟨?_, rfl⟩
    show (InsertionMap.write name _ o.standings.toList).map _ = _
    rw [InsertionMap.write_of_notMem hnew, List.map_append]
    rfl
  · exact Or.inl ⟨map_rank_write hs value, rfl⟩

theorem nextRank_put_le (o : TurnOrder) (name : String) (value : Int) :
    (o.put name value).2.nextRank ≤ o.nextRank + 1 := by
  rcases ranks_put o name value with ⟨-, hnext⟩ | ⟨-, hnext⟩
  · omega
  · omega

theorem Ranked.pairwise_ranks {o : TurnOrder} (ho : o.Ranked) : o.ranks.Pairwise (· < ·) :=
  List.pairwise_map.2 ho.increasing

theorem Storable.lt_of_mem_ranks {o : TurnOrder} (ho : o.Storable) {n : Nat} (hn : n ∈ o.ranks) :
    n < o.nextRank := by
  obtain ⟨e, he, rfl⟩ := List.mem_map.1 hn
  exact ho.rank_lt e he

/-- **Giving a name a value keeps an order storable.** -/
theorem Storable.put {o : TurnOrder} (ho : o.Storable) {name : String} (hname : name ≠ "")
    (value : Int) : (o.put name value).2.Storable := by
  refine ⟨?_, ?_, ?_⟩
  · intro e he
    rcases mem_entries_put he with rfl | he
    · rw [fst_put]
      exact hname
    · exact ho.named e he
  · intro e he
    have hrank : e.rank ∈ (o.put name value).2.ranks := List.mem_map.2 ⟨e, he, rfl⟩
    rcases ranks_put o name value with ⟨hranks, hnext⟩ | ⟨hranks, hnext⟩
    · rw [hranks] at hrank
      rw [hnext]
      exact ho.lt_of_mem_ranks hrank
    · rw [hranks, List.mem_append, List.mem_singleton] at hrank
      rw [hnext]
      rcases hrank with hrank | hrank
      · exact Nat.lt_succ_of_lt (ho.lt_of_mem_ranks hrank)
      · exact Nat.lt_succ_of_le (Nat.le_of_eq hrank)
  · have hsize := size_le_size_put o name value
    have hpos := size_put_pos o name value
    have hplaced := ho.placed
    rw [index_put]
    omega

/-- **Giving a name a value keeps an order ranked.** -/
theorem Ranked.put {o : TurnOrder} (ho : o.Ranked) {name : String} (hname : name ≠ "")
    (value : Int) : (o.put name value).2.Ranked := by
  have hstorable := ho.storable.put hname value
  refine ⟨List.pairwise_map.1 ?_, hstorable.rank_lt, hstorable.named, hstorable.placed⟩
  show (o.put name value).2.ranks.Pairwise (· < ·)
  rcases ranks_put o name value with ⟨hranks, -⟩ | ⟨hranks, -⟩
  · rw [hranks]
    exact ho.pairwise_ranks
  · -- The rank of a new entry is above all others, and the entry is the last one.
    rw [hranks, List.pairwise_append]
    refine ⟨ho.pairwise_ranks, List.pairwise_singleton _ _, ?_⟩
    intro n hn m hm
    rw [List.mem_singleton.1 hm]
    exact ho.storable.lt_of_mem_ranks hn

/-! ### The operations -/

/-- What adding a name does: a blank one is refused. -/
theorem add_eq (o : TurnOrder) (name : String) (value : Int) :
    o.add name value =
      if Text.trim name = "" then .error (.format .blankName)
      else .ok (o.put (Text.trim name) value) := by
  have hempty : (Text.trim name).isEmpty = true ↔ Text.trim name = "" := String.isEmpty_iff
  unfold add readName
  simp only [hempty]
  by_cases hblank : Text.trim name = ""
  · rw [if_pos hblank, if_pos hblank]
    rfl
  · rw [if_neg hblank, if_neg hblank]
    rfl

/-- What adding a name does, if the name is not refused. -/
theorem add_eq_ok {o o' : TurnOrder} {name : String} {value : Int} {e : Entry}
    (h : o.add name value = .ok (e, o')) :
    Text.trim name ≠ "" ∧ o.put (Text.trim name) value = (e, o') := by
  rw [add_eq] at h
  by_cases hblank : Text.trim name = ""
  · rw [if_pos hblank] at h
    cases h
  · rw [if_neg hblank] at h
    exact ⟨hblank, Except.ok.inj h⟩

theorem Storable.add {o o' : TurnOrder} (ho : o.Storable) {name : String} {value : Int} {e : Entry}
    (h : o.add name value = .ok (e, o')) : o'.Storable := by
  obtain ⟨hname, hput⟩ := add_eq_ok h
  have hstorable := ho.put hname value
  rw [hput] at hstorable
  exact hstorable

theorem Ranked.add {o o' : TurnOrder} (ho : o.Ranked) {name : String} {value : Int} {e : Entry}
    (h : o.add name value = .ok (e, o')) : o'.Ranked := by
  obtain ⟨hname, hput⟩ := add_eq_ok h
  have hranked := ho.put hname value
  rw [hput] at hranked
  exact hranked

theorem remove_of_contains {o : TurnOrder} {name : String}
    (h : o.contains (Text.trim name) = true) :
    o.remove name =
      (true,
        { o with
          standings := o.standings.erase (Text.trim name)
          index := indexAfter o.index
            (o.display.findIdx fun e => e.name == Text.trim name)
            (o.standings.erase (Text.trim name)).size }) := by
  unfold remove
  simp only [h, if_true]

theorem remove_of_not_contains {o : TurnOrder} {name : String}
    (h : o.contains (Text.trim name) = false) : o.remove name = (false, o) := by
  unfold remove
  simp only [h, Bool.false_eq_true, if_false]

/-- The place after a removal is that of an entry, if one is left. -/
theorem indexAfter_lt {index left : Nat} (h : index ≤ left) (removed : Nat) :
    indexAfter index removed left = 0 ∨ indexAfter index removed left < left := by
  unfold indexAfter
  split
  · exact Or.inl rfl
  split
  · exact Or.inr (by omega)
  split
  · exact Or.inl rfl
  · exact Or.inr (by omega)

/-- The entries after a removal are among those before. -/
theorem entries_remove_sublist (o : TurnOrder) (name : String) :
    (o.remove name).2.entries.Sublist o.entries := by
  cases hc : o.contains (Text.trim name) with
  | false =>
    have hsame : (o.remove name).2.entries = o.entries := by rw [remove_of_not_contains hc]
    exact hsame ▸ List.Sublist.refl _
  | true =>
    rw [remove_of_contains hc]
    exact List.Sublist.map _ List.filter_sublist

theorem nextRank_remove (o : TurnOrder) (name : String) :
    (o.remove name).2.nextRank = o.nextRank := by
  cases hc : o.contains (Text.trim name) with
  | false => rw [remove_of_not_contains hc]
  | true => rw [remove_of_contains hc]

/-- **Removing a name keeps an order storable.** -/
theorem Storable.remove {o : TurnOrder} (ho : o.Storable) (name : String) :
    (o.remove name).2.Storable := by
  have hsublist := entries_remove_sublist o name
  refine ⟨fun e he => ho.named e (hsublist.subset he), ?_, ?_⟩
  · intro e he
    rw [nextRank_remove]
    exact ho.rank_lt e (hsublist.subset he)
  · cases hc : o.contains (Text.trim name) with
    | false =>
      rw [remove_of_not_contains hc]
      exact ho.placed
    | true =>
      have hsize : (o.standings.erase (Text.trim name)).size + 1 = o.size :=
        o.standings.size_erase hc
      have hplaced := ho.placed
      rw [remove_of_contains hc]
      exact indexAfter_lt (by omega) _

theorem Ranked.remove {o : TurnOrder} (ho : o.Ranked) (name : String) :
    (o.remove name).2.Ranked := by
  have hstorable := ho.storable.remove name
  have hincreasing := ho.increasing.sublist (entries_remove_sublist o name)
  exact ⟨hincreasing, hstorable.rank_lt, hstorable.named, hstorable.placed⟩

/-- The turn is passed only if there is an entry, and nothing else changes. -/
theorem advance_eq_ok {o o' : TurnOrder} {e : Entry} (h : o.advance = .ok (e, o')) :
    0 < o.size ∧ o' = { o with index := (o.index + 1) % o.size } := by
  unfold advance at h
  simp only at h
  split at h
  · next hcurrent =>
    rw [Except.ok.injEq, Prod.mk.injEq] at h
    have hlt := (List.getElem?_eq_some_iff.1 hcurrent).1
    rw [length_display] at hlt
    exact ⟨Nat.zero_lt_of_lt hlt, h.2.symm⟩
  · cases h

theorem Storable.advance {o o' : TurnOrder} (ho : o.Storable) {e : Entry}
    (h : o.advance = .ok (e, o')) : o'.Storable := by
  obtain ⟨hpos, rfl⟩ := advance_eq_ok h
  exact ⟨ho.named, ho.rank_lt, Or.inr (Nat.mod_lt _ hpos)⟩

theorem Ranked.advance {o o' : TurnOrder} (ho : o.Ranked) {e : Entry}
    (h : o.advance = .ok (e, o')) : o'.Ranked := by
  have hstorable := ho.storable.advance h
  obtain ⟨-, rfl⟩ := advance_eq_ok h
  exact ⟨ho.increasing, hstorable.rank_lt, hstorable.named, hstorable.placed⟩

/-! ### Storing -/

/-- As many numbers as an increasing list has lie between its bounds. -/
theorem length_le_of_increasing {l : List Nat} {low high : Nat} (h : l.Pairwise (· < ·))
    (hl : ∀ n ∈ l, low ≤ n ∧ n < high) (hle : low ≤ high) : low + l.length ≤ high := by
  induction l generalizing low with
  | nil => exact hle
  | cons n l ih =>
    rw [List.pairwise_cons] at h
    have hn := hl n List.mem_cons_self
    have hrest : n + 1 + l.length ≤ high :=
      ih h.2 (fun m hm => ⟨h.1 m hm, (hl m (List.mem_cons_of_mem n hm)).2⟩) hn.2
    rw [List.length_cons]
    omega

/-- A ranked order has no more entries than ranks were given. -/
theorem Ranked.size_le_nextRank {o : TurnOrder} (ho : o.Ranked) : o.size ≤ o.nextRank := by
  have hbounds : ∀ n ∈ o.ranks, 0 ≤ n ∧ n < o.nextRank :=
    fun n hn => ⟨Nat.zero_le n, ho.storable.lt_of_mem_ranks hn⟩
  have hlen := length_le_of_increasing ho.pairwise_ranks hbounds (Nat.zero_le _)
  rw [ranks, List.length_map, length_entries, Nat.zero_add] at hlen
  exact hlen

/-- The next rank is the largest number of a ranked order beside the values. -/
theorem Ranked.legible {o : TurnOrder} (ho : o.Ranked) (hvalues : ∀ e ∈ o.entries, IsShort e.value)
    (hnext : IsShort o.nextRank) : o.Legible := by
  refine ⟨?_, hnext.of_natAbs_le ?_, hnext⟩
  · intro e he
    exact ⟨hvalues e he, hnext.of_natAbs_le (Nat.le_of_lt (ho.rank_lt e he))⟩
  · have hsize := ho.size_le_nextRank
    have hplaced := ho.placed
    omega

/-- **A ranked order is read from its text just as it is**, unless one of its numbers is too
long. -/
theorem Ranked.read_render {o : TurnOrder} (ho : o.Ranked) :
    TurnOrder.read o.render = if o.Legible then .ok o else .error unreadable := by
  rw [TurnOrder.read_render ho.storable,
    byRank_of_pairwise (ho.increasing.imp fun h => Nat.le_of_lt h)]

end TurnOrder

end Tabletop.Initiative
