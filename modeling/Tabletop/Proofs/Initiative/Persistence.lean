import Tabletop.Proofs.Initiative.Alike
import Tabletop.Proofs.Json.Short

/-!
# Storing a turn order cannot be noticed

A turn order that was stored and is read again may list its entries in another sequence, but it is
`Alike` the one that was stored: it shows the same, and gives the same answers to all actions from
then on.  This holds of every order that actions can reach, also from a text that was written by
others, in which ranks may be missing, or the same for several entries.

Only numbers with too many digits come in between.  Values that are read or added have few enough,
but the next rank, which is above all others, may have one digit more than a text can give back.

## Main definitions

* `OrderAction`, `OrderAction.act`, `answers` — actions on a turn order, and a run of them.
* `Reachable` — the orders that actions reach from the empty one or from a text.

## Main results

* `storable_of_read`, `isShort_of_read` — what holds of an order that is read from any text.
* `OrderAction.act_alike`, `answers_of_alike` — alike orders give the same answers.
* `Reachable.storable`, `Reachable.isShort_value` — what holds of a reachable order.
* `Reachable.read_render_alike` — **a reachable order is read from its text as one that is alike.**
-/

namespace Tabletop.Initiative

open Json Row

/-! ### Orders that were read -/

theorem Entry.ofValue_eq_ok {v : Value} {e : Entry} (hv : v.isShort = true)
    (h : Entry.ofValue v = .ok e) : e.name ≠ "" ∧ IsShort e.value := by
  cases v with
  | object members =>
    obtain ⟨⟨⟨name, value⟩, rank⟩, hfields, rfl⟩ := Except.map_eq_ok h
    obtain ⟨hnamed, -⟩ := both_eq_ok hfields
    obtain ⟨hname, hvalue⟩ := both_eq_ok hnamed
    obtain ⟨w, -, hw⟩ := required_eq_ok hname
    obtain ⟨u, hu, hread⟩ := required_eq_ok hvalue
    exact ⟨ne_empty_of_readText hw, isShort_of_readInteger (isShort_of_field? hv hu) hread⟩
  | null | bool _ | int _ | float _ | string _ | array _ => cases h

theorem of_mem_readAll {α : Type} {read : Value → Checked α} {vs : List Value} {as : List α}
    (h : readAll read vs = .ok as) {a : α} (ha : a ∈ as) : ∃ v ∈ vs, read v = .ok a := by
  induction vs generalizing as with
  | nil =>
    obtain rfl := Except.ok.inj h
    cases ha
  | cons v vs ih =>
    obtain ⟨⟨b, bs⟩, hboth, rfl⟩ := Except.map_eq_ok h
    obtain ⟨hb, hbs⟩ := both_eq_ok hboth
    rcases List.mem_cons.1 ha with rfl | ha
    · exact ⟨v, List.mem_cons_self, hb⟩
    · obtain ⟨w, hw, hread⟩ := ih hbs ha
      exact ⟨w, List.mem_cons_of_mem v hw, hread⟩

/-- The entries of a snapshot that is read have names and short values. -/
theorem Snapshot.ofValue_eq_ok {v : Value} {s : Snapshot} (hv : v.isShort = true)
    (h : Snapshot.ofValue v = .ok s) : ∀ e ∈ s.entries, e.name ≠ "" ∧ IsShort e.value := by
  cases v with
  | object members =>
    obtain ⟨⟨⟨⟨version, entries⟩, index⟩, nextRank⟩, hfields, rfl⟩ := Except.map_eq_ok h
    obtain ⟨hplaced, -⟩ := both_eq_ok hfields
    obtain ⟨hversioned, -⟩ := both_eq_ok hplaced
    obtain ⟨-, hentries⟩ := both_eq_ok hversioned
    intro e he
    rw [readEntries] at hentries
    split at hentries
    · obtain rfl := Except.ok.inj hentries
      cases he
    · next items hitems =>
      obtain ⟨w, hw, hread⟩ := of_mem_readAll hentries he
      have hshort : areShort items = true := isShort_of_field? hv hitems
      exact Entry.ofValue_eq_ok (isShort_of_mem_items hshort hw) hread
    · cases hentries
  | null | bool _ | int _ | float _ | string _ | array _ => cases h

/-- Entries that are added come to the end of the list. -/
theorem toList_of_addEntries {es : List Entry} {m m' : InsertionMap String Standing}
    (h : addEntries m es = .ok m') : m'.toList = m.toList ++ es.map Entry.toPair := by
  induction es generalizing m with
  | nil =>
    obtain rfl := Except.ok.inj h
    exact (List.append_nil _).symm
  | cons e es ih =>
    rw [addEntries] at h
    split at h
    · cases h
    · next hcontains =>
      have hnew : e.name ∉ m.toList.map Prod.fst :=
        fun hmem => hcontains ((m.contains_iff_mem_keys e.name).2 hmem)
      have hput : (m.put e.name ⟨e.value, e.rank⟩).toList = m.toList ++ [e.toPair] :=
        InsertionMap.write_of_notMem hnew _
      rw [ih h, hput, List.append_assoc]
      rfl

theorem rank_lt_foldl {es : List Entry} {e : Entry} (he : e ∈ es) (k : Nat) :
    e.rank < es.foldl (fun n e => max n (e.rank + 1)) k := by
  have hmono : ∀ (es : List Entry) (k : Nat), k ≤ es.foldl (fun n e => max n (e.rank + 1)) k := by
    intro es
    induction es with
    | nil => exact fun k => Nat.le_refl k
    | cons e es ih => exact fun k => Nat.le_trans (Nat.le_max_left k _) (ih _)
  induction es generalizing k with
  | nil => cases he
  | cons d es ih =>
    rcases List.mem_cons.1 he with rfl | he
    · exact Nat.lt_of_lt_of_le (Nat.le_max_right k _) (hmono es _)
    · exact ih he _

theorem rank_lt_rankBound {es : List Entry} {e : Entry} (he : e ∈ es) : e.rank < rankBound es :=
  rank_lt_foldl he 0

/-- **What restoring a snapshot gives.** -/
theorem Snapshot.restore_eq_ok {s : Snapshot} {o : TurnOrder} (h : s.restore = .ok o) :
    o.entries = s.entries ∧
      o.index = (if s.entries.isEmpty then 0 else s.index % s.entries.length) ∧
      o.nextRank = max s.nextRank (rankBound s.entries) := by
  obtain ⟨standings, hstandings, rfl⟩ := Except.map_eq_ok h
  refine ⟨?_, rfl, rfl⟩
  have hlist := toList_of_addEntries hstandings
  show standings.toList.map _ = _
  rw [hlist]
  show (s.entries.map Entry.toPair).map _ = _
  rw [List.map_map]
  exact List.map_id _

namespace TurnOrder

theorem read_eq_ok {text : String} {o : TurnOrder} (h : TurnOrder.read text = .ok o) :
    ∃ s : Snapshot, s.restore = .ok o ∧ ∀ e ∈ s.entries, e.name ≠ "" ∧ IsShort e.value := by
  rw [TurnOrder.read] at h
  split at h
  · cases h
  · next v hv =>
    split at h
    · cases h
    · next s hs => exact ⟨s, h, Snapshot.ofValue_eq_ok (read?_isShort hv) hs⟩

/-- **An order that is read from any text is storable.** -/
theorem storable_of_read {text : String} {o : TurnOrder} (h : TurnOrder.read text = .ok o) :
    o.Storable := by
  obtain ⟨s, hrestore, hentries⟩ := read_eq_ok h
  obtain ⟨hsame, hindex, hnext⟩ := Snapshot.restore_eq_ok hrestore
  refine ⟨?_, ?_, ?_⟩
  · intro e he
    exact (hentries e (hsame ▸ he)).1
  · intro e he
    rw [hnext]
    exact Nat.lt_of_lt_of_le (rank_lt_rankBound (hsame ▸ he)) (Nat.le_max_right _ _)
  · have hsize : s.entries.length = o.size := by rw [← hsame, length_entries]
    rw [hindex]
    split
    · exact Or.inl rfl
    · next hne =>
      have hpos : 0 < s.entries.length := by
        rw [List.isEmpty_iff] at hne
        exact List.length_pos_iff.2 hne
      rw [← hsize]
      exact Or.inr (Nat.mod_lt _ hpos)

theorem isShort_of_read {text : String} {o : TurnOrder} (h : TurnOrder.read text = .ok o) :
    ∀ e ∈ o.entries, IsShort e.value := by
  obtain ⟨s, hrestore, hentries⟩ := read_eq_ok h
  intro e he
  rw [(Snapshot.restore_eq_ok hrestore).1] at he
  exact (hentries e he).2

end TurnOrder

/-! ### Actions -/

/-- What can be done with a turn order that is kept in memory. -/
inductive OrderAction where
  /-- Gives a name a value. -/
  | add (name : String) (value : Int)
  /-- Removes a name. -/
  | remove (name : String)
  /-- Passes the turn on. -/
  | advance
  /-- Removes all names. -/
  | clear
  /-- Stores the order and reads it again. -/
  | reload
  /-- Asks whether a name is there. -/
  | contains (name : String)
  /-- Shows the order. -/
  | list
  /-- Asks who holds the turn. -/
  | current
  /-- Asks for the place of the turn. -/
  | index
  /-- Asks for the number of names. -/
  | size
  /-- Asks for the text of the order. -/
  | text

/-- The answer to an action on a turn order. -/
inductive OrderAnswer where
  /-- An entry was given a value, or has the turn. -/
  | entry (e : Entry)
  /-- A name was there or not, or there were names or none. -/
  | found (b : Bool)
  /-- The order was read. -/
  | reloaded
  /-- The order as it is displayed. -/
  | slots (l : List Slot)
  /-- The entry that holds the turn, if there is any. -/
  | holder (e : Option Entry)
  /-- A place or a number of names. -/
  | number (n : Nat)
  /-- The text of the order. -/
  | text (s : String)
  deriving DecidableEq, Repr

/-- What an action does to a turn order, and its answer.  An action that is refused leaves the order
as it was. -/
def OrderAction.act : OrderAction → TurnOrder → Except Error OrderAnswer × TurnOrder
  | .add name value, o =>
    match o.add name value with
    | .ok (e, o') => (.ok (.entry e), o')
    | .error e => (.error e, o)
  | .remove name, o => (.ok (.found (o.remove name).1), (o.remove name).2)
  | .advance, o =>
    match o.advance with
    | .ok (e, o') => (.ok (.entry e), o')
    | .error e => (.error e, o)
  | .clear, o => (.ok (.found o.clear.1), o.clear.2)
  | .reload, o =>
    match TurnOrder.read o.render with
    | .ok o' => (.ok .reloaded, o')
    | .error e => (.error e, o)
  | .contains name, o => (.ok (.found (o.contains name)), o)
  | .list, o => (.ok (.slots o.slots), o)
  | .current, o => (.ok (.holder o.current?), o)
  | .index, o => (.ok (.number o.index), o)
  | .size, o => (.ok (.number o.size), o)
  | .text, o => (.ok (.text o.render), o)

/-- The answers to actions one after another. -/
def answers : List OrderAction → TurnOrder → List (Except Error OrderAnswer)
  | [], _ => []
  | action :: actions, o => (action.act o).1 :: answers actions (action.act o).2

/-- **Alike orders give the same answer to an action, and stay alike.** -/
theorem OrderAction.act_alike (action : OrderAction) {o o' : TurnOrder} (h : o.Alike o') :
    (action.act o).1 = (action.act o').1 ∧ (action.act o).2.Alike (action.act o').2 := by
  cases action with
  | add name value =>
    rcases hname : TurnOrder.readName name with e | name'
    · simp only [act, TurnOrder.add, hname, Except.map]
      exact ⟨trivial, h⟩
    · obtain ⟨hentry, halike⟩ := h.put name' value
      simp only [act, TurnOrder.add, hname, Except.map, hentry]
      exact ⟨trivial, halike⟩
  | remove name =>
    obtain ⟨hfound, halike⟩ := h.remove name
    exact ⟨congrArg (fun b => Except.ok (OrderAnswer.found b)) hfound, halike⟩
  | advance =>
    have hnext := h.withIndex ((o.index + 1) % o.size)
    simp only [act, TurnOrder.advance, ← h.index_eq, ← h.size_eq, ← hnext.current?_eq]
    rcases TurnOrder.current? { o with index := (o.index + 1) % o.size } with _ | e
    · exact ⟨rfl, h⟩
    · exact ⟨rfl, hnext⟩
  | clear =>
    have hempty : o.standings.isEmpty = o'.standings.isEmpty := by
      have hsize : o.standings.toList.length = o'.standings.toList.length := h.size_eq
      rw [Bool.eq_iff_iff]
      simp only [InsertionMap.isEmpty, List.isEmpty_iff_length_eq_zero, hsize]
    exact ⟨congrArg (fun b => Except.ok (OrderAnswer.found (!b))) hempty, rfl⟩
  | reload =>
    -- Both are read from one text.
    simp only [act, ← h.render_eq]
    rcases TurnOrder.read o.render with e | o''
    · exact ⟨rfl, h⟩
    · exact ⟨rfl, rfl⟩
  | contains name =>
    exact ⟨congrArg (fun b => Except.ok (OrderAnswer.found b)) (h.contains_eq name), h⟩
  | list => exact ⟨congrArg (fun l => Except.ok (OrderAnswer.slots l)) h.slots_eq, h⟩
  | current => exact ⟨congrArg (fun e => Except.ok (OrderAnswer.holder e)) h.current?_eq, h⟩
  | index => exact ⟨congrArg (fun n => Except.ok (OrderAnswer.number n)) h.index_eq, h⟩
  | size => exact ⟨congrArg (fun n => Except.ok (OrderAnswer.number n)) h.size_eq, h⟩
  | text => exact ⟨congrArg (fun s => Except.ok (OrderAnswer.text s)) h.render_eq, h⟩

/-- **Alike orders give the same answers to all actions.** -/
theorem answers_of_alike (actions : List OrderAction) {o o' : TurnOrder} (h : o.Alike o') :
    answers actions o = answers actions o' := by
  induction actions generalizing o o' with
  | nil => rfl
  | cons action actions ih =>
    obtain ⟨hanswer, halike⟩ := action.act_alike h
    rw [answers, answers, hanswer, ih halike]

/-! ### Orders that can be reached -/

/-- The value that an action adds has no more digits than a text may give back. -/
def OrderAction.IsShort : OrderAction → Prop
  | .add _ value => Json.IsShort value
  | _ => True

/-- The orders that actions reach from the empty one, or from any text that can be read. -/
inductive Reachable : TurnOrder → Prop where
  | empty : Reachable .empty
  | read {text : String} {o : TurnOrder} (h : TurnOrder.read text = .ok o) : Reachable o
  | act {o : TurnOrder} (ho : Reachable o) {action : OrderAction} (hshort : action.IsShort) :
      Reachable (action.act o).2

/-- An action keeps an order storable. -/
theorem OrderAction.storable_act (action : OrderAction) {o : TurnOrder} (ho : o.Storable) :
    (action.act o).2.Storable := by
  cases action with
  | add name value =>
    rw [act]
    rcases hadd : o.add name value with e | ⟨e, o'⟩
    · exact ho
    · exact ho.add hadd
  | remove name => exact ho.remove name
  | advance =>
    rw [act]
    rcases hadvance : o.advance with e | ⟨e, o'⟩
    · exact ho
    · exact ho.advance hadvance
  | clear => exact TurnOrder.storable_empty
  | reload =>
    rw [act]
    rcases hread : TurnOrder.read o.render with e | o'
    · exact ho
    · exact TurnOrder.storable_of_read hread
  | contains _ | list | current | index | size | text => exact ho

/-- **An entry after an action was added by it, or was there before.** -/
theorem OrderAction.mem_entries_act {action : OrderAction} {o : TurnOrder} (ho : o.Storable)
    {e : Entry} (he : e ∈ (action.act o).2.entries) :
    (∃ name, action = .add name e.value ∧ e.name = Text.trim name) ∨ e ∈ o.entries := by
  cases action with
  | add name value =>
    rw [act] at he
    rcases hadd : o.add name value with f | ⟨d, o'⟩
    · rw [hadd] at he
      exact Or.inr he
    rw [hadd] at he
    obtain ⟨-, hput⟩ := TurnOrder.add_eq_ok hadd
    obtain rfl : (o.put (Text.trim name) value).2 = o' := congrArg Prod.snd hput
    rcases TurnOrder.mem_entries_put he with rfl | hold
    · rw [TurnOrder.fst_put]
      exact Or.inl ⟨name, rfl, rfl⟩
    · exact Or.inr hold
  | remove name => exact Or.inr ((TurnOrder.entries_remove_sublist o name).subset he)
  | advance =>
    rw [act] at he
    rcases hadvance : o.advance with f | ⟨d, o'⟩
    · rw [hadvance] at he
      exact Or.inr he
    · rw [hadvance] at he
      obtain ⟨-, rfl⟩ := TurnOrder.advance_eq_ok hadvance
      exact Or.inr he
  | clear => cases he
  | reload =>
    rw [act, TurnOrder.read_render ho] at he
    by_cases hlegible : o.Legible
    · rw [if_pos hlegible] at he
      exact Or.inr (o.alike_byRank.perm.mem_iff.1 he)
    · rw [if_neg hlegible] at he
      exact Or.inr he
  | contains _ | list | current | index | size | text => exact Or.inr he

/-- An action keeps the values short, if the one that it adds is. -/
theorem OrderAction.isShort_act {action : OrderAction} (hshort : action.IsShort) {o : TurnOrder}
    (ho : o.Storable) (hvalues : ∀ e ∈ o.entries, Json.IsShort e.value) :
    ∀ e ∈ (action.act o).2.entries, Json.IsShort e.value := by
  intro e he
  rcases mem_entries_act ho he with ⟨name, rfl, -⟩ | hold
  · exact hshort
  · exact hvalues e hold

namespace Reachable

variable {o : TurnOrder}

theorem storable (ho : Reachable o) : o.Storable := by
  induction ho with
  | empty => exact TurnOrder.storable_empty
  | read h => exact TurnOrder.storable_of_read h
  | act _ _ ih => exact OrderAction.storable_act _ ih

theorem isShort_value (ho : Reachable o) : ∀ e ∈ o.entries, IsShort e.value := by
  induction ho with
  | empty => exact fun e he => by cases he
  | read h => exact TurnOrder.isShort_of_read h
  | act ho hshort ih => exact OrderAction.isShort_act hshort ho.storable ih

/-- The next rank and the place of the turn are the only numbers that may be too long. -/
theorem legible_iff (ho : Reachable o) : o.Legible ↔ IsShort o.nextRank ∧ IsShort o.index := by
  constructor
  · rintro ⟨-, hindex, hnext⟩
    exact ⟨hnext, hindex⟩
  · rintro ⟨hnext, hindex⟩
    refine ⟨?_, hindex, hnext⟩
    intro e he
    have hrank := ho.storable.rank_lt e he
    exact ⟨ho.isShort_value e he, hnext.of_natAbs_le (by omega)⟩

/-- **Storing a turn order cannot be noticed.**  An order that actions have reached from the empty
one, or from any text, is read from its own text, unless its next rank or the place of its turn has
too many digits for a text.  The order that is read shows the same, ties included, has the same
numbers and the same text, and gives the same answers to whatever is done from then on. -/
theorem read_render_alike (ho : Reachable o) :
    if IsShort o.nextRank ∧ IsShort o.index then
      ∃ o', TurnOrder.read o.render = .ok o' ∧
        o'.display = o.display ∧ o'.index = o.index ∧ o'.nextRank = o.nextRank ∧
        o'.size = o.size ∧ o'.render = o.render ∧
        ∀ actions, answers actions o' = answers actions o
    else TurnOrder.read o.render = .error TurnOrder.unreadable := by
  have hread := TurnOrder.read_render ho.storable
  have halike := o.alike_byRank
  by_cases hshort : IsShort o.nextRank ∧ IsShort o.index
  · rw [if_pos hshort]
    rw [if_pos (ho.legible_iff.2 hshort)] at hread
    exact ⟨o.byRank, hread, halike.display_eq, halike.index_eq, halike.nextRank_eq, halike.size_eq,
      halike.render_eq, fun actions => answers_of_alike actions halike⟩
  · rw [if_neg hshort]
    rw [if_neg fun hlegible => hshort (ho.legible_iff.1 hlegible)] at hread
    exact hread

/-- Two entries that others gave the same value and the same rank, and a place beyond the end. -/
theorem read_render_alike_ties :
    ∃ o, Reachable o ∧ o.entries = [⟨"B", 1, 5⟩, ⟨"A", 1, 5⟩] ∧ o.index = 1 ∧
      ∃ o', TurnOrder.read o.render = .ok o' ∧ o'.display = o.display := by
  have hread := TurnOrder.read_toValue (s := ⟨[⟨"B", 1, 5⟩, ⟨"A", 1, 5⟩], 3, 0⟩) (by decide)
  rw [if_pos (by decide)] at hread
  obtain ⟨o, ho⟩ : ∃ o, Snapshot.restore ⟨[⟨"B", 1, 5⟩, ⟨"A", 1, 5⟩], 3, 0⟩ = .ok o := ⟨_, rfl⟩
  obtain ⟨hentries, hindex, hnext⟩ := Snapshot.restore_eq_ok ho
  have hreachable : Reachable o := .read (hread.trans ho)
  have hshort : IsShort o.nextRank ∧ IsShort o.index := by
    rw [hnext, hindex]
    decide
  have halike := read_render_alike hreachable
  rw [if_pos hshort] at halike
  obtain ⟨o', ho', hdisplay, -⟩ := halike
  exact ⟨o, hreachable, hentries, hindex, o', ho', hdisplay⟩

/-- **The next rank may be too long**: a text with the largest rank that can be read gives an order
that cannot be read from its own text. -/
theorem unreadable_after_largest_rank :
    ∃ o, TurnOrder.read (Snapshot.toValue ⟨[⟨"A", 1, 10 ^ maxWholeDigits - 1⟩], 0, 0⟩).render =
        .ok o ∧
      TurnOrder.read o.render = .error TurnOrder.unreadable := by
  obtain ⟨largest, hlargest⟩ : ∃ n, n + 1 = 10 ^ maxWholeDigits :=
    ⟨10 ^ maxWholeDigits - 1, Nat.sub_add_cancel (Nat.pow_pos (by decide))⟩
  rw [← hlargest, Nat.add_sub_cancel]
  have hrank : IsShort largest := isShort_iff.2 (by omega)
  have hread := TurnOrder.read_toValue (s := ⟨[⟨"A", 1, largest⟩], 0, 0⟩) (by simp)
  have hshort : (Snapshot.toValue ⟨[⟨"A", 1, largest⟩], 0, 0⟩).isShort = true := by
    have hone : IsShort 1 := by decide
    have hzero : IsShort 0 := by decide
    simp [Snapshot.isShort_toValue, hrank, hone, hzero]
  rw [if_pos hshort] at hread
  obtain ⟨o, ho⟩ : ∃ o, Snapshot.restore ⟨[⟨"A", 1, largest⟩], 0, 0⟩ = .ok o := ⟨_, rfl⟩
  refine ⟨o, hread.trans ho, ?_⟩
  -- The next rank is a power of ten with one digit too many.
  have hnext : o.nextRank = largest + 1 := by
    rw [(Snapshot.restore_eq_ok ho).2.2]
    exact (Nat.zero_max _).trans (Nat.zero_max _)
  have hlong : ¬o.Legible := by
    rintro ⟨-, -, hnextShort⟩
    have hlt := isShort_iff.1 hnextShort
    omega
  rw [TurnOrder.read_render (TurnOrder.storable_of_read (hread.trans ho)), if_neg hlong]

end Reachable

end Tabletop.Initiative
