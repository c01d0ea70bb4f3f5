import Mathlib.Data.List.Basic
import Tabletop.Proofs.Initiative.Ranked

/-!
# Turn orders with the same text

A text lists the entries of a turn order by rank, while the order itself lists them as their names
came.  Two orders may therefore differ although their texts are the same.  Nobody can tell: sorting
is stable, so entries of the same rank stand in the same sequence in both, and what an order shows
depends on nothing else.

## Main definitions

* `TurnOrder.Alike` — two orders hold the same entries by rank, and agree in all else.
* `TurnOrder.entriesAt` — the entries of one rank.

## Main results

* `filter_mergeSort` — stable sorting leaves entries that are not told apart as they stood.
* `mergeSort_eq_of_filter_eq` — a sorted list is known from its classes of equals.
* `mergeSort_filter` — sorting and leaving out elements may be done in either order.
* `alike_iff` — orders are alike if their entries of each rank are the same.
* `Alike.display_eq`, `Alike.get?_eq`, `Alike.render_eq`, … — alike orders show the same.
* `Alike.put`, `Alike.remove`, `Alike.withIndex` — **operations keep orders alike.**
-/

namespace Tabletop.Initiative

/-! ### Stable sorting -/

section Stable

variable {α : Type} {le : α → α → Bool}

/-- **Sorting leaves the elements of a class as they stood**, if the order does not tell them
apart. -/
theorem filter_mergeSort (htrans : ∀ a b c, le a b = true → le b c = true → le a c = true)
    (htotal : ∀ a b, (le a b || le b a) = true) {p : α → Bool}
    (hp : ∀ a b, p a = true → p b = true → le a b = true) (l : List α) :
    (l.mergeSort le).filter p = l.filter p := by
  have hsorted : (l.filter p).Pairwise fun a b => le a b = true :=
    List.pairwise_of_forall_mem_list fun a ha b hb =>
      hp a b (List.mem_filter.1 ha).2 (List.mem_filter.1 hb).2
  have hsublist := (List.sublist_mergeSort htrans htotal hsorted List.filter_sublist).filter p
  rw [List.filter_filter] at hsublist
  simp only [Bool.and_self] at hsublist
  have hlength := ((List.mergeSort_perm l le).filter p).length_eq
  exact (hsublist.eq_of_length hlength.symm).symm

/-- Lists with the same classes of equals have the same elements. -/
theorem mem_iff_of_filter_eq (hrefl : ∀ a, le a a = true) {l l' : List α}
    (h : ∀ a, l.filter (fun b => le a b && le b a) = l'.filter fun b => le a b && le b a) (a : α) :
    a ∈ l ↔ a ∈ l' := by
  have hclass : ∀ m : List α, a ∈ m ↔ a ∈ m.filter fun b => le a b && le b a := by
    intro m
    rw [List.mem_filter, hrefl, Bool.and_self, and_iff_left rfl]
  rw [hclass l, h a, ← hclass l']

/-- Sorted lists with the same classes of equals are the same. -/
theorem eq_of_filter_eq (hrefl : ∀ a, le a a = true) {l l' : List α}
    (hl : l.Pairwise fun a b => le a b = true) (hl' : l'.Pairwise fun a b => le a b = true)
    (h : ∀ a, l.filter (fun b => le a b && le b a) = l'.filter fun b => le a b && le b a) :
    l = l' := by
  induction l generalizing l' with
  | nil =>
    rcases l' with _ | ⟨b, l'⟩
    · rfl
    · exact absurd ((mem_iff_of_filter_eq hrefl h b).2 List.mem_cons_self) List.not_mem_nil
  | cons a l ih =>
    have ha := (mem_iff_of_filter_eq hrefl h a).1 List.mem_cons_self
    rcases l' with _ | ⟨b, l'⟩
    · exact absurd ha List.not_mem_nil
    have hb := (mem_iff_of_filter_eq hrefl h b).2 List.mem_cons_self
    rw [List.pairwise_cons] at hl hl'
    -- Each list starts with an element that is before all others, so the two are of one class.
    have hab : le a b = true := by
      rcases List.mem_cons.1 hb with rfl | hb
      · exact hrefl b
      · exact hl.1 b hb
    have hba : le b a = true := by
      rcases List.mem_cons.1 ha with rfl | ha
      · exact hrefl a
      · exact hl'.1 a ha
    have hhead := h a
    simp only [List.filter_cons, hrefl, hab, hba, Bool.and_self, if_true] at hhead
    obtain rfl := (List.cons.inj hhead).1
    have htail : ∀ c, l.filter (fun b => le c b && le b c) =
        l'.filter fun b => le c b && le b c := by
      intro c
      have hc := h c
      rw [List.filter_cons, List.filter_cons] at hc
      split at hc
      · exact (List.cons.inj hc).2
      · exact hc
    rw [ih hl.2 hl'.2 htail]

/-- Sorting leaves the equals of an element as they stood. -/
theorem filter_equals_mergeSort
    (htrans : ∀ a b c, le a b = true → le b c = true → le a c = true)
    (htotal : ∀ a b, (le a b || le b a) = true) (a : α) (l : List α) :
    (l.mergeSort le).filter (fun b => le a b && le b a) = l.filter fun b => le a b && le b a := by
  refine filter_mergeSort htrans htotal ?_ l
  intro b c hb hc
  rw [Bool.and_eq_true] at hb hc
  exact htrans b a c hb.2 hc.1

/-- **Sorting gives the same from lists with the same classes of equals.** -/
theorem mergeSort_eq_of_filter_eq
    (htrans : ∀ a b c, le a b = true → le b c = true → le a c = true)
    (htotal : ∀ a b, (le a b || le b a) = true) {l l' : List α}
    (h : ∀ a, l.filter (fun b => le a b && le b a) = l'.filter fun b => le a b && le b a) :
    l.mergeSort le = l'.mergeSort le := by
  have hrefl : ∀ a, le a a = true := fun a => (Bool.or_self _).symm.trans (htotal a a)
  refine eq_of_filter_eq hrefl (List.pairwise_mergeSort htrans htotal l)
    (List.pairwise_mergeSort htrans htotal l') ?_
  intro a
  rw [filter_equals_mergeSort htrans htotal, filter_equals_mergeSort htrans htotal, h a]

/-- **What is left out of a list is left out of the sorted list**, and the rest stands as it did. -/
theorem mergeSort_filter (htrans : ∀ a b c, le a b = true → le b c = true → le a c = true)
    (htotal : ∀ a b, (le a b || le b a) = true) (p : α → Bool) (l : List α) :
    (l.filter p).mergeSort le = (l.mergeSort le).filter p := by
  have hrefl : ∀ a, le a a = true := fun a => (Bool.or_self _).symm.trans (htotal a a)
  refine eq_of_filter_eq hrefl (List.pairwise_mergeSort htrans htotal _)
    ((List.pairwise_mergeSort htrans htotal l).filter p) ?_
  intro a
  rw [filter_equals_mergeSort htrans htotal, List.filter_comm,
    List.filter_comm _ _ (l.mergeSort le), filter_equals_mergeSort htrans htotal]

end Stable

/-! ### Entries -/

namespace TurnOrder

/-- The entries of one rank, in the order in which their names came. -/
def entriesAt (o : TurnOrder) (rank : Nat) : List Entry :=
  o.entries.filter fun e => decide (e.rank = rank)

/-- A condition that only entries of one rank meet. -/
theorem filter_entries {o : TurnOrder} {p : Entry → Bool} {rank : Nat}
    (hp : ∀ e, p e = true → e.rank = rank) : o.entries.filter p = (o.entriesAt rank).filter p := by
  rw [entriesAt, List.filter_filter]
  refine List.filter_congr fun e _ => ?_
  rw [Bool.eq_iff_iff, Bool.and_eq_true, decide_eq_true_eq]
  exact (and_iff_left_of_imp (hp e)).symm

/-- The standing of a name is that of its entry. -/
theorem get?_standings_iff {o : TurnOrder} {name : String} {s : Standing} :
    o.standings.get? name = some s ↔ ⟨name, s.value, s.rank⟩ ∈ o.entries := by
  rw [InsertionMap.get?_eq_some_iff, entries, List.mem_map]
  constructor
  · intro hmem
    exact ⟨(name, s), hmem, rfl⟩
  · rintro ⟨⟨name', s'⟩, hmem, heq⟩
    obtain ⟨rfl, hvalue, hrank⟩ := Entry.mk.inj heq
    obtain rfl : s' = s := by
      rw [Standing.mk.injEq]
      exact ⟨hvalue, hrank⟩
    exact hmem

/-- Gives an entry a value if it has the name. -/
def revalue (name : String) (value : Int) (e : Entry) : Entry :=
  if e.name = name then { e with value := value } else e

@[simp] theorem rank_revalue (name : String) (value : Int) (e : Entry) :
    (revalue name value e).rank = e.rank := by
  unfold revalue
  split
  · rfl
  · rfl

theorem revalue_of_ne {name : String} {e : Entry} (h : e.name ≠ name) (value : Int) :
    revalue name value e = e := if_neg h

/-- Writing a standing of the same rank to a name that is there gives its entry the value. -/
theorem map_write_of_find {name : String} {s : Standing} (value : Int)
    {l : List (String × Standing)} (hnodup : (l.map Prod.fst).Nodup)
    (hfind : InsertionMap.find name l = some s) :
    (InsertionMap.write name ⟨value, s.rank⟩ l).map (fun p => Entry.mk p.1 p.2.value p.2.rank) =
      (l.map fun p => Entry.mk p.1 p.2.value p.2.rank).map (revalue name value) := by
  induction l with
  | nil => cases hfind
  | cons p l ih =>
    obtain ⟨name', s'⟩ := p
    rw [List.map_cons, List.nodup_cons] at hnodup
    rw [InsertionMap.find] at hfind
    rw [InsertionMap.write]
    by_cases hname : name' = name
    · subst hname
      rw [if_pos rfl, Option.some.injEq] at hfind
      subst hfind
      -- The name occurs once, so all other entries keep their values.
      have hrest : (l.map fun p => Entry.mk p.1 p.2.value p.2.rank).map (revalue name' value) =
          l.map fun p => Entry.mk p.1 p.2.value p.2.rank := by
        rw [List.map_map]
        refine List.map_congr_left fun p hp => revalue_of_ne ?_ value
        rintro rfl
        exact hnodup.1 (List.mem_map.2 ⟨p, hp, rfl⟩)
      rw [if_pos rfl, List.map_cons, List.map_cons, List.map_cons, hrest, revalue, if_pos rfl]
    · rw [if_neg hname] at hfind
      rw [if_neg hname, List.map_cons, List.map_cons, List.map_cons, ih hnodup.2 hfind,
        revalue_of_ne hname]

/-- A name that is there gets its value in place. -/
theorem entries_put_of_some {o : TurnOrder} {name : String} {s : Standing}
    (h : o.standings.get? name = some s) (value : Int) :
    (o.put name value).2.entries = o.entries.map (revalue name value) := by
  unfold put
  rw [h]
  exact map_write_of_find value o.standings.distinct h

/-- A new name goes to the end. -/
theorem entries_put_of_none {o : TurnOrder} {name : String} (h : o.standings.get? name = none)
    (value : Int) :
    (o.put name value).2.entries = o.entries ++ [⟨name, value, o.nextRank⟩] := by
  have hnew : name ∉ o.standings.toList.map Prod.fst := by
    intro hmem
    rw [← InsertionMap.isSome_find_iff, ← InsertionMap.get?, h] at hmem
    cases hmem
  unfold put
  rw [h]
  show (InsertionMap.write name _ o.standings.toList).map _ = _
  rw [InsertionMap.write_of_notMem hnew, List.map_append]
  rfl

/-- Removing a name leaves the entries of all others. -/
theorem entries_erase (o : TurnOrder) (name : String) (index nextRank : Nat) :
    (TurnOrder.mk (o.standings.erase name) index nextRank).entries =
      o.entries.filter fun e => decide (e.name ≠ name) := by
  show (o.standings.toList.filter _).map _ = (o.standings.toList.map _).filter _
  rw [List.filter_map]
  rfl

/-! ### Orders with the same text -/

/-- Two orders whose texts are the same. -/
def Alike (o o' : TurnOrder) : Prop := o.snapshot = o'.snapshot

theorem rank_le_trans (a b c : Entry) (hab : decide (a.rank ≤ b.rank) = true)
    (hbc : decide (b.rank ≤ c.rank) = true) : decide (a.rank ≤ c.rank) = true := by
  rw [decide_eq_true_eq] at hab hbc ⊢
  exact Nat.le_trans hab hbc

theorem rank_le_total (a b : Entry) :
    (decide (a.rank ≤ b.rank) || decide (b.rank ≤ a.rank)) = true := by
  rw [Bool.or_eq_true, decide_eq_true_eq, decide_eq_true_eq]
  exact Nat.le_total a.rank b.rank

/-- The entries of a rank stand in a snapshot as they stand in the order. -/
theorem filter_snapshot (o : TurnOrder) (rank : Nat) :
    o.snapshot.entries.filter (fun e => decide (e.rank = rank)) = o.entriesAt rank := by
  refine filter_mergeSort rank_le_trans rank_le_total ?_ o.entries
  intro a b ha hb
  rw [decide_eq_true_eq] at ha hb ⊢
  omega

/-- **Orders are alike if their entries of each rank are the same**, and the place of the turn and
the next rank. -/
theorem alike_iff {o o' : TurnOrder} :
    o.Alike o' ↔
      (∀ rank, o.entriesAt rank = o'.entriesAt rank) ∧ o.index = o'.index ∧
        o.nextRank = o'.nextRank := by
  constructor
  · intro h
    refine ⟨?_, congrArg Snapshot.index h, congrArg Snapshot.nextRank h⟩
    intro rank
    rw [← filter_snapshot, ← filter_snapshot, show o.snapshot = o'.snapshot from h]
  · rintro ⟨hentries, hindex, hnext⟩
    have hsorted : o.snapshot.entries = o'.snapshot.entries := by
      refine mergeSort_eq_of_filter_eq rank_le_trans rank_le_total ?_
      intro a
      have hclass : ∀ e : Entry,
          (decide (a.rank ≤ e.rank) && decide (e.rank ≤ a.rank)) = true → e.rank = a.rank := by
        intro e he
        rw [Bool.and_eq_true, decide_eq_true_eq, decide_eq_true_eq] at he
        omega
      rw [filter_entries hclass, filter_entries hclass, hentries]
    show Snapshot.mk _ _ _ = Snapshot.mk _ _ _
    rw [Snapshot.mk.injEq]
    exact ⟨hsorted, hindex, hnext⟩

/-- An order is like the one that lists its entries by rank. -/
theorem alike_byRank (o : TurnOrder) : o.byRank.Alike o := by
  refine alike_iff.2 ⟨?_, rfl, rfl⟩
  intro rank
  rw [entriesAt, entries_byRank]
  exact filter_snapshot o rank

section Alike

variable {o o' : TurnOrder}

/-- Alike orders hold the same entries. -/
theorem Alike.perm (h : o.Alike o') : o.entries.Perm o'.entries := by
  have hsnapshot : o.snapshot.entries = o'.snapshot.entries := congrArg Snapshot.entries h
  exact o.snapshot_entries_perm.symm.trans (hsnapshot ▸ o'.snapshot_entries_perm)

theorem Alike.size_eq (h : o.Alike o') : o.size = o'.size := by
  rw [← length_entries, ← length_entries]
  exact h.perm.length_eq

theorem Alike.index_eq (h : o.Alike o') : o.index = o'.index := (alike_iff.1 h).2.1

theorem Alike.nextRank_eq (h : o.Alike o') : o.nextRank = o'.nextRank := (alike_iff.1 h).2.2

theorem Alike.render_eq (h : o.Alike o') : o.render = o'.render := by
  rw [render, render, show o.snapshot = o'.snapshot from h]

theorem Alike.get?_eq (h : o.Alike o') (name : String) :
    o.standings.get? name = o'.standings.get? name := by
  refine Option.ext fun s => ?_
  rw [get?_standings_iff, get?_standings_iff]
  exact h.perm.mem_iff

theorem Alike.contains_eq (h : o.Alike o') (name : String) : o.contains name = o'.contains name :=
  congrArg Option.isSome (h.get?_eq name)

/-- **Alike orders are displayed alike**, entries of the same value and rank included. -/
theorem Alike.display_eq (h : o.Alike o') : o.display = o'.display := by
  have htrans : ∀ a b c, actsBefore a b = true → actsBefore b c = true → actsBefore a c = true :=
    fun _ _ _ => actsBefore_trans
  refine mergeSort_eq_of_filter_eq htrans actsBefore_total ?_
  intro a
  have hclass : ∀ e, (actsBefore a e && actsBefore e a) = true → e.rank = a.rank := by
    intro e he
    simp only [actsBefore, Bool.and_eq_true, Bool.or_eq_true, decide_eq_true_eq] at he
    omega
  rw [filter_entries hclass, filter_entries hclass, (alike_iff.1 h).1]

theorem Alike.slots_eq (h : o.Alike o') : o.slots = o'.slots := by
  rw [slots, slots, h.display_eq, h.index_eq]

theorem Alike.current?_eq (h : o.Alike o') : o.current? = o'.current? := by
  rw [current?, current?, h.display_eq, h.index_eq]

/-- **Giving a name a value keeps orders alike.** -/
theorem Alike.put (h : o.Alike o') (name : String) (value : Int) :
    (o.put name value).1 = (o'.put name value).1 ∧
      (o.put name value).2.Alike (o'.put name value).2 := by
  have hget := h.get?_eq name
  obtain ⟨hentries, hindex, hnext⟩ := alike_iff.1 h
  rcases hstanding : o.standings.get? name with _ | s
  · have hstanding' : o'.standings.get? name = none := hget ▸ hstanding
    refine ⟨?_, alike_iff.2 ⟨?_, ?_, ?_⟩⟩
    · simp only [TurnOrder.put, hstanding, hstanding', hnext]
    · intro rank
      rw [entriesAt, entriesAt, entries_put_of_none hstanding, entries_put_of_none hstanding',
        List.filter_append, List.filter_append, hnext]
      exact congrArg (· ++ _) (hentries rank)
    · rw [index_put, index_put, hindex]
    · simp only [TurnOrder.put, hstanding, hstanding', hnext]
  · have hstanding' : o'.standings.get? name = some s := hget ▸ hstanding
    refine ⟨?_, alike_iff.2 ⟨?_, ?_, ?_⟩⟩
    · simp only [TurnOrder.put, hstanding, hstanding']
    · -- A new value leaves the rank, so the entries of each rank are the same as before.
      intro rank
      have hrank : (fun e => decide (Entry.rank e = rank)) ∘ revalue name value =
          fun e => decide (e.rank = rank) := by
        funext e
        rw [Function.comp_apply, rank_revalue]
      rw [entriesAt, entriesAt, entries_put_of_some hstanding, entries_put_of_some hstanding',
        List.filter_map, List.filter_map, hrank]
      exact congrArg (List.map _) (hentries rank)
    · rw [index_put, index_put, hindex]
    · simp only [TurnOrder.put, hstanding, hstanding', hnext]

/-- **Removing a name keeps orders alike.** -/
theorem Alike.remove (h : o.Alike o') (name : String) :
    (o.remove name).1 = (o'.remove name).1 ∧ (o.remove name).2.Alike (o'.remove name).2 := by
  obtain ⟨hentries, hindex, hnext⟩ := alike_iff.1 h
  rcases hcontains : o.contains (Text.trim name) with _ | _
  · have hcontains' : o'.contains (Text.trim name) = false := h.contains_eq _ ▸ hcontains
    rw [remove_of_not_contains hcontains, remove_of_not_contains hcontains']
    exact ⟨rfl, h⟩
  · have hcontains' : o'.contains (Text.trim name) = true := h.contains_eq _ ▸ hcontains
    rw [remove_of_contains hcontains, remove_of_contains hcontains']
    have hsize : (o.standings.erase (Text.trim name)).size =
        (o'.standings.erase (Text.trim name)).size := by
      have hleft : (o.standings.erase (Text.trim name)).size + 1 = o.size :=
        o.standings.size_erase hcontains
      have hleft' : (o'.standings.erase (Text.trim name)).size + 1 = o'.size :=
        o'.standings.size_erase hcontains'
      have hsame := h.size_eq
      omega
    refine ⟨rfl, alike_iff.2 ⟨?_, ?_, hnext⟩⟩
    · intro rank
      rw [entriesAt, entriesAt, entries_erase, entries_erase, List.filter_comm,
        List.filter_comm _ _ o'.entries]
      exact congrArg (List.filter _) (hentries rank)
    · simp only [hindex, h.display_eq, hsize]

/-- The turn may be put at the same place in both. -/
theorem Alike.withIndex (h : o.Alike o') (index : Nat) :
    Alike { o with index := index } { o' with index := index } := by
  obtain ⟨hentries, -, hnext⟩ := alike_iff.1 h
  exact alike_iff.2 ⟨hentries, rfl, hnext⟩

end Alike

end TurnOrder

end Tabletop.Initiative
