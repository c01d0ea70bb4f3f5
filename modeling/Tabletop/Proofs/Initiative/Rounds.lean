import Mathlib.Data.List.Rotate
import Tabletop.Proofs.Initiative.Alike

/-!
# Rounds of turns

The place of the turn is a number, and it has to be mended whenever a name is removed.  What the
numbers stand for is a queue: the entries in the order in which they will hold the turn, its holder
first.  Passing the turn on sends the holder to the end of the queue, and removing a name takes its
entry out and leaves all others where they are, whatever the place of the turn was.

So between two visits of the turn to the same entry every other one is visited once, unless it is
removed.

## Main definitions

* `TurnOrder.queue` — the entries in the order in which they will hold the turn.
* `Move`, `Move.act`, `visits` — passing the turn on and removing names, and the entries to which
  the turn comes by it.
* `InRound` — who has held the turn since it was at an entry, and who has not yet.

## Main results

* `TurnOrder.display_remove`, `TurnOrder.remove_of_display` — removing a name leaves the others
  displayed as they were.
* `TurnOrder.queue_advance`, `TurnOrder.queue_remove` — what the operations do to the queue.
* `InRound.step`, `visits_of_inRound` — what one move and a run of moves do to a round.
* `visits_between` — **between two visits to an entry every other one that stays is visited once.**
-/

namespace Tabletop.Initiative

/-! ### Rotated lists -/

/-- A rotated list starts with the place up to which it was rotated. -/
theorem rotate_of_lt {α : Type} {l : List α} {n : Nat} (h : n < l.length) :
    l.rotate n = l[n] :: (l.drop (n + 1) ++ l.take n) := by
  rw [List.rotate_eq_drop_append_take (Nat.le_of_lt h), List.drop_eq_getElem_cons h,
    List.cons_append]

/-- **The place of the turn is mended so that the removed element is taken out of the rotated
list**, and all others stay where they are in it. -/
theorem rotate_indexAfter {α : Type} (before after : List α) (a : α) {index : Nat}
    (h : index < (before ++ a :: after).length) :
    ∃ l l', (before ++ a :: after).rotate index = l ++ a :: l' ∧
      (before ++ after).rotate
        (TurnOrder.indexAfter index before.length (before ++ after).length) = l ++ l' := by
  rw [List.length_append, List.length_cons] at h
  rw [List.length_append]
  unfold TurnOrder.indexAfter
  rcases Nat.lt_trichotomy before.length index with hlt | heq | hgt
  · -- The holder comes behind the removed element and moves up.
    obtain ⟨k, rfl⟩ : ∃ k, index = before.length + (1 + k) := ⟨index - before.length - 1, by omega⟩
    have hk : k ≤ after.length := by omega
    refine ⟨after.drop k ++ before, after.take k, ?_, ?_⟩
    · have hsplit : before ++ a :: after = (before ++ a :: after.take k) ++ after.drop k := by
        simp
      have hlen : before.length + (1 + k) = (before ++ a :: after.take k).length := by
        simp [hk]
        omega
      rw [hsplit, hlen, List.rotate_append_length_eq, List.append_assoc]
    · have hsplit : before ++ after = (before ++ after.take k) ++ after.drop k := by simp
      have hlen : before.length + (1 + k) - 1 = (before ++ after.take k).length := by
        simp [hk]
        omega
      rw [if_neg (by omega), if_pos (by omega), hsplit, hlen, List.rotate_append_length_eq,
        List.append_assoc]
  · -- The holder is removed, and the one behind it is the next.
    subst heq
    refine ⟨[], after ++ before, ?_, ?_⟩
    · rw [List.rotate_append_length_eq]
      rfl
    · rcases after with _ | ⟨b, after⟩
      · simp
      · rw [if_neg (by simp), if_neg (by omega), if_neg (by simp), List.rotate_append_length_eq]
        rfl
  · -- The holder comes before the removed element and stays.
    have hsplit : before = before.take index ++ before.drop index := by simp
    have hlen : index = (before.take index).length := by
      simp
      omega
    refine ⟨before.drop index, after ++ before.take index, ?_, ?_⟩
    · calc (before ++ a :: after).rotate index
          = (before.take index ++ (before.drop index ++ a :: after)).rotate
              (before.take index).length := by
            rw [← List.append_assoc, ← hsplit, ← hlen]
        _ = before.drop index ++ a :: (after ++ before.take index) := by
            rw [List.rotate_append_length_eq]
            simp
    · rw [if_neg (by omega), if_neg (by omega), if_neg (by omega)]
      calc (before ++ after).rotate index
          = (before.take index ++ (before.drop index ++ after)).rotate
              (before.take index).length := by
            rw [← List.append_assoc, ← hsplit, ← hlen]
        _ = before.drop index ++ (after ++ before.take index) := by
            rw [List.rotate_append_length_eq, List.append_assoc]

/-! ### The queue -/

namespace TurnOrder

/-- The entries in the order in which they will hold the turn, its holder first. -/
def queue (o : TurnOrder) : List Entry := o.display.rotate o.index

variable {o : TurnOrder}

@[simp] theorem mem_queue {e : Entry} : e ∈ o.queue ↔ e ∈ o.entries := by
  rw [queue, List.mem_rotate, mem_display]

/-- No name is displayed twice. -/
theorem nodup_names_display (o : TurnOrder) : (o.display.map Entry.name).Nodup := by
  rw [(o.display_perm.map Entry.name).nodup_iff, map_name_entries]
  exact o.standings.nodup_keys

theorem nodup_display (o : TurnOrder) : o.display.Nodup := .of_map _ o.nodup_names_display

/-- Entries that came in the order in which they act are displayed as they came. -/
theorem display_of_pairwise (h : o.entries.Pairwise fun a b => actsBefore a b = true) :
    o.display = o.entries :=
  List.mergeSort_of_pairwise h

/-- The first of the queue holds the turn. -/
theorem head?_queue (hplaced : o.index = 0 ∨ o.index < o.size) : o.queue.head? = o.current? := by
  rw [queue, current?]
  rcases hplaced with hzero | hlt
  · rw [hzero, List.rotate_zero, List.head?_eq_getElem?]
  · rw [List.head?_rotate (by rw [length_display]; exact hlt)]

/-- The display, seen from the holder of the turn. -/
theorem display_of_queue {x : Entry} {rest : List Entry}
    (hplaced : o.index = 0 ∨ o.index < o.size) (h : o.queue = x :: rest) :
    ∃ above below, o.display = above ++ x :: below ∧ rest = below ++ above := by
  have hlt : o.index < o.display.length := by
    have hpos : 0 < o.display.length := by
      rw [← List.length_rotate o.display o.index, ← queue, h]
      simp
    rw [length_display] at hpos ⊢
    omega
  rw [queue, rotate_of_lt hlt] at h
  obtain ⟨rfl, rfl⟩ := List.cons.inj h
  refine ⟨o.display.take o.index, o.display.drop (o.index + 1), ?_, rfl⟩
  rw [← List.drop_eq_getElem_cons hlt, List.take_append_drop]

/-- Passing the turn on sends its holder to the end of the queue. -/
theorem queue_advance {x : Entry} {rest : List Entry} (h : o.queue = x :: rest) :
    ∃ e o', o.advance = .ok (e, o') ∧ o'.queue = rest ++ [x] ∧ (rest ++ [x]).head? = some e := by
  have hpos : 0 < o.size := by
    rw [← length_display, ← List.length_rotate o.display o.index, ← queue, h]
    simp
  have hqueue : TurnOrder.queue { o with index := (o.index + 1) % o.size } = rest ++ [x] := by
    show o.display.rotate ((o.index + 1) % o.size) = _
    rw [← length_display, List.rotate_mod, ← List.rotate_rotate, ← queue, h,
      List.rotate_cons_succ, List.rotate_zero]
  have hhead := head?_queue (o := { o with index := (o.index + 1) % o.size })
    (Or.inr (Nat.mod_lt _ hpos))
  rw [hqueue] at hhead
  rcases he : (rest ++ [x]).head? with _ | e
  · simp at he
  · refine ⟨e, _, ?_, hqueue, rfl⟩
    simp only [advance, ← hhead, he]

/-- The names that are there are those of the displayed entries. -/
theorem contains_iff_mem_display {name : String} :
    o.contains name = true ↔ ∃ e ∈ o.display, e.name = name := by
  rw [contains, InsertionMap.contains_iff_mem_keys, ← map_name_entries,
    ← (o.display_perm.map Entry.name).mem_iff, List.mem_map]

/-- **Removing a name leaves the others displayed as they were.** -/
theorem display_remove (o : TurnOrder) (name : String) :
    (o.remove name).2.display = o.display.filter fun e => decide (e.name ≠ Text.trim name) := by
  rcases hcontains : o.contains (Text.trim name) with _ | _
  · rw [remove_of_not_contains hcontains, List.filter_eq_self.2]
    intro e he
    rw [decide_eq_true_eq]
    intro hname
    rw [contains_iff_mem_display.2 ⟨e, he, hname⟩] at hcontains
    cases hcontains
  · have htrans : ∀ a b c, actsBefore a b = true → actsBefore b c = true → actsBefore a c = true :=
      fun _ _ _ => actsBefore_trans
    rw [remove_of_contains hcontains, display, entries_erase, display,
      mergeSort_filter htrans actsBefore_total]

theorem placed_remove (hplaced : o.index = 0 ∨ o.index < o.size) (name : String) :
    (o.remove name).2.index = 0 ∨ (o.remove name).2.index < (o.remove name).2.size := by
  rcases hcontains : o.contains (Text.trim name) with _ | _
  · rw [remove_of_not_contains hcontains]
    exact hplaced
  · have hsize : (o.standings.erase (Text.trim name)).size + 1 = o.size :=
      o.standings.size_erase hcontains
    rw [remove_of_contains hcontains]
    exact indexAfter_lt (by omega) _

/-- No other displayed entry has the name of an entry. -/
theorem name_ne_of_display {above below : List Entry} {x : Entry}
    (h : o.display = above ++ x :: below) : ∀ e ∈ above ++ below, e.name ≠ x.name := by
  have hnodup := o.nodup_names_display
  rw [h, List.map_append, List.map_cons, List.nodup_middle, List.nodup_cons,
    ← List.map_append] at hnodup
  exact fun e he heq => hnodup.1 (heq ▸ List.mem_map_of_mem he)

/-- The entry of a name that is there stands at one place of the display. -/
theorem display_of_contains {name : String} (h : o.contains name = true) :
    ∃ above x below, o.display = above ++ x :: below ∧ x.name = name := by
  obtain ⟨x, hx, rfl⟩ := contains_iff_mem_display.1 h
  obtain ⟨above, below, hsplit⟩ := List.append_of_mem hx
  exact ⟨above, x, below, hsplit, rfl⟩

/-- An entry is left out by its name, if no other one has that name. -/
theorem filter_name {l l' : List Entry} {x : Entry} (h : ∀ e ∈ l ++ l', e.name ≠ x.name) :
    (l ++ x :: l').filter (fun e => decide (e.name ≠ x.name)) = l ++ l' := by
  rw [List.filter_append, List.filter_cons_of_neg (by simp), ← List.filter_append]
  exact List.filter_eq_self.2 fun e he => decide_eq_true (h e he)

/-- The place of an entry is found by its name, if no other one before it has that name. -/
theorem findIdx_name {l l' : List Entry} {x : Entry} (h : ∀ e ∈ l ++ l', e.name ≠ x.name) :
    (l ++ x :: l').findIdx (fun e => e.name == x.name) = l.length := by
  induction l with
  | nil => simp [List.findIdx_cons]
  | cons e l ih =>
    rw [List.cons_append, List.forall_mem_cons] at h
    have hne : (e.name == x.name) = false := by simpa using h.1
    rw [List.cons_append, List.findIdx_cons, hne, ih h.2]
    rfl

/-- **Removing the name of a displayed entry takes this entry out of the display**, and mends the
place of the turn. -/
theorem remove_of_display {above below : List Entry} {x : Entry} {name : String}
    (h : o.display = above ++ x :: below) (hname : x.name = Text.trim name) :
    ∃ o', o.remove name = (true, o') ∧ o'.display = above ++ below ∧ o'.nextRank = o.nextRank ∧
      o'.index = indexAfter o.index above.length (above ++ below).length := by
  have hothers := name_ne_of_display h
  have hcontains : o.contains (Text.trim name) = true :=
    contains_iff_mem_display.2 ⟨x, h ▸ List.mem_append_cons_self, hname⟩
  have hdisplay := display_remove o name
  have hremove := remove_of_contains hcontains
  rw [← hname, h, filter_name hothers] at hdisplay
  have hleft : (o.standings.erase (Text.trim name)).size = (above ++ below).length := by
    rw [← hdisplay, length_display, hremove]
    rfl
  refine ⟨_, hremove, ?_, rfl, ?_⟩
  · rw [← hdisplay, hremove]
  · show indexAfter o.index _ (o.standings.erase (Text.trim name)).size = _
    rw [hleft, h, ← hname, findIdx_name hothers]

/-- **Removing a name takes its entry out of the queue.** -/
theorem queue_remove (hplaced : o.index = 0 ∨ o.index < o.size) (name : String) :
    (o.remove name).2.queue = o.queue.filter fun e => decide (e.name ≠ Text.trim name) := by
  rcases hcontains : o.contains (Text.trim name) with _ | _
  · have hdisplay := display_remove o name
    rw [remove_of_not_contains hcontains] at hdisplay ⊢
    rw [queue, eq_comm, List.filter_eq_self]
    intro e he
    rw [List.mem_rotate, hdisplay] at he
    exact (List.mem_filter.1 he).2
  · obtain ⟨above, x, below, hsplit, hname⟩ := display_of_contains hcontains
    obtain ⟨o', hremove, hdisplay, -, hindex⟩ := remove_of_display hsplit hname
    have hlt : o.index < (above ++ x :: below).length := by
      have hpos : 0 < o.display.length := by
        rw [hsplit]
        exact List.length_pos_of_mem List.mem_append_cons_self
      rw [length_display] at hpos
      rw [← hsplit, length_display]
      omega
    obtain ⟨l, l', hqueue, hqueue'⟩ := rotate_indexAfter above below x hlt
    have hrest : ∀ e ∈ l ++ l', e.name ≠ x.name := by
      intro e he
      rw [← hqueue', List.mem_rotate] at he
      exact name_ne_of_display hsplit e he
    rw [hremove, ← hname, queue, hdisplay, hindex, hqueue', queue, hsplit, hqueue,
      filter_name hrest]

end TurnOrder

/-! ### Moves -/

/-- What may happen to a turn order while its turns go on. -/
inductive Move where
  /-- The turn is passed on. -/
  | advance
  /-- A name is removed. -/
  | remove (name : String)

/-- The order after a move.  A turn that cannot be passed on stays. -/
def Move.act : Move → TurnOrder → TurnOrder
  | advance, o =>
    match o.advance with
    | .ok (_, o') => o'
    | .error _ => o
  | remove name, o => (o.remove name).2

/-- The order after moves one after another. -/
def actMoves (moves : List Move) (o : TurnOrder) : TurnOrder := moves.foldl (fun o m => m.act o) o

/-- The entry to which a move brings the turn.  The turn always comes to an entry when it is passed
on, also if there is only one; when a name is removed it does so if another entry holds it then. -/
def Move.visit : Move → TurnOrder → List Entry
  | advance, o =>
    match o.advance with
    | .ok (e, _) => [e]
    | .error _ => []
  | remove name, o =>
    if (o.remove name).2.current? = o.current? then [] else (o.remove name).2.current?.toList

/-- The entries to which moves bring the turn, one after another.  An entry that keeps the turn
while others are removed is visited once. -/
def visits : List Move → TurnOrder → List Entry
  | [], _ => []
  | m :: moves, o => m.visit o ++ visits moves (m.act o)

@[simp] theorem actMoves_nil (o : TurnOrder) : actMoves [] o = o := rfl

@[simp] theorem actMoves_cons (m : Move) (moves : List Move) (o : TurnOrder) :
    actMoves (m :: moves) o = actMoves moves (m.act o) := rfl

@[simp] theorem visits_nil (o : TurnOrder) : visits [] o = [] := rfl

@[simp] theorem visits_cons (m : Move) (moves : List Move) (o : TurnOrder) :
    visits (m :: moves) o = m.visit o ++ visits moves (m.act o) := rfl

/-- Whether a move leaves an entry where it is. -/
def Move.keeps : Move → Entry → Bool
  | advance, _ => true
  | remove name, e => decide (e.name ≠ Text.trim name)

theorem Move.placed_act (m : Move) {o : TurnOrder} (hplaced : o.index = 0 ∨ o.index < o.size) :
    (m.act o).index = 0 ∨ (m.act o).index < (m.act o).size := by
  cases m with
  | advance =>
    rw [act]
    rcases hadvance : o.advance with e | ⟨e, o'⟩
    · exact hplaced
    · obtain ⟨hpos, rfl⟩ := TurnOrder.advance_eq_ok hadvance
      exact Or.inr (Nat.mod_lt _ hpos)
  | remove name => exact TurnOrder.placed_remove hplaced name

/-- The entries after a move are those that it keeps. -/
theorem Move.mem_entries_act (m : Move) {o : TurnOrder} {e : Entry} :
    e ∈ (m.act o).entries ↔ e ∈ o.entries ∧ m.keeps e = true := by
  cases m with
  | advance =>
    rw [act, keeps]
    rcases hadvance : o.advance with e | ⟨e, o'⟩
    · simp
    · obtain ⟨-, rfl⟩ := TurnOrder.advance_eq_ok hadvance
      simp [TurnOrder.entries]
  | remove name =>
    rw [act, keeps, ← TurnOrder.mem_display, TurnOrder.display_remove, List.mem_filter,
      TurnOrder.mem_display]

theorem placed_actMoves (moves : List Move) {o : TurnOrder}
    (hplaced : o.index = 0 ∨ o.index < o.size) :
    (actMoves moves o).index = 0 ∨ (actMoves moves o).index < (actMoves moves o).size := by
  induction moves generalizing o with
  | nil => exact hplaced
  | cons m moves ih => exact ih (m.placed_act hplaced)

theorem mem_entries_of_actMoves {moves : List Move} {o : TurnOrder} {e : Entry}
    (h : e ∈ (actMoves moves o).entries) : e ∈ o.entries := by
  induction moves generalizing o with
  | nil => exact h
  | cons m moves ih => exact (m.mem_entries_act.1 (ih h)).1

/-! ### Removals and the turn -/

section Removal

variable {o : TurnOrder} {name : String} {holder : Entry} {rest : List Entry}

theorem Move.queue_act_remove (hplaced : o.index = 0 ∨ o.index < o.size) (name : String) :
    ((remove name).act o).queue = o.queue.filter (remove name).keeps :=
  TurnOrder.queue_remove hplaced name

/-- The turn comes to no one if its holder is kept. -/
theorem Move.visit_remove_of_keeps (hplaced : o.index = 0 ∨ o.index < o.size)
    (hqueue : o.queue = holder :: rest) (hholder : (remove name).keeps holder = true) :
    (remove name).visit o = [] := by
  have hqueue' := queue_act_remove hplaced name
  rw [hqueue, List.filter_cons_of_pos hholder] at hqueue'
  have hsame : ((remove name).act o).current? = o.current? := by
    rw [← TurnOrder.head?_queue hplaced, hqueue,
      ← TurnOrder.head?_queue ((remove name).placed_act hplaced), hqueue']
    rfl
  exact if_pos hsame

/-- If its holder is removed, the turn comes to the head of the new queue. -/
theorem Move.visit_remove_of_not_keeps (hplaced : o.index = 0 ∨ o.index < o.size)
    (hqueue : o.queue = holder :: rest) (hholder : ¬(remove name).keeps holder = true)
    {y : Entry} {rest' : List Entry} (hqueue' : ((remove name).act o).queue = y :: rest') :
    (remove name).visit o = [y] := by
  have hcurrent : o.current? = some holder := by
    rw [← TurnOrder.head?_queue hplaced, hqueue]
    rfl
  have hcurrent' : (o.remove name).2.current? = some y := by
    rw [← TurnOrder.head?_queue (TurnOrder.placed_remove hplaced name)]
    exact congrArg List.head? hqueue'
  have hkept : (remove name).keeps y = true := by
    have hmem : y ∈ ((remove name).act o).entries := by
      rw [← TurnOrder.mem_queue, hqueue']
      exact List.mem_cons_self
    exact ((remove name).mem_entries_act.1 hmem).2
  rw [visit, hcurrent, hcurrent', if_neg]
  · rfl
  · intro heq
    obtain rfl := Option.some.inj heq
    exact hholder hkept

end Removal

/-! ### Rounds -/

/-- A round that started when the turn was at an entry `x`: the turn has been at the entries `done`
since then, and is at the last of them, or still at `x`; those `todo` come before `x` has it
again. -/
def InRound (o : TurnOrder) (x : Entry) (done todo : List Entry) : Prop :=
  ∃ held holder, x :: done = held ++ [holder] ∧ o.queue = holder :: (todo ++ held)

/-- A round starts with all others still to come. -/
theorem inRound_start {o : TurnOrder} {x : Entry} {rest : List Entry} (h : o.queue = x :: rest) :
    InRound o x [] rest :=
  ⟨[], x, rfl, by rw [h, List.append_nil]⟩

theorem queue_of_inRound_nil {o : TurnOrder} {x : Entry} {todo : List Entry}
    (h : InRound o x [] todo) : o.queue = x :: todo := by
  obtain ⟨held, holder, hheld, hqueue⟩ := h
  rcases held with _ | ⟨y, held⟩
  · obtain rfl := (List.cons.inj hheld).1
    rw [hqueue, List.append_nil]
  · simp at hheld

/-- Whoever has had the turn in a round or is still to have it is in the order. -/
theorem InRound.mem_queue {o : TurnOrder} {x e : Entry} {done todo : List Entry}
    (hround : InRound o x done todo) (he : e ∈ done ∨ e ∈ todo) : e ∈ o.queue := by
  obtain ⟨held, holder, hheld, hqueue⟩ := hround
  rw [hqueue, List.mem_cons, List.mem_append]
  rcases he with hdone | htodo
  · have hmem : e ∈ held ++ [holder] := hheld ▸ List.mem_cons_of_mem x hdone
    rw [List.mem_append, List.mem_singleton] at hmem
    exact hmem.elim (fun h => Or.inr (Or.inr h)) Or.inl
  · exact Or.inr (Or.inl htodo)

/-- The entry at which a round started is not among those that are still to come. -/
theorem InRound.not_mem_todo {o : TurnOrder} {x : Entry} {done todo : List Entry}
    (hround : InRound o x done todo) : x ∉ todo := by
  obtain ⟨held, holder, hheld, hqueue⟩ := hround
  have hnodup : (holder :: (todo ++ held)).Nodup := by
    rw [← hqueue, TurnOrder.queue, List.nodup_rotate]
    exact o.nodup_display
  have hx : x ∈ held ++ [holder] := hheld ▸ List.mem_cons_self
  rw [List.nodup_cons, List.nodup_append] at hnodup
  intro htodo
  rcases List.mem_append.1 hx with hx | hx
  · exact hnodup.2.2.2 x htodo x hx rfl
  · rw [List.mem_singleton] at hx
    exact hnodup.1 (List.mem_append_left _ (hx ▸ htodo))

/-- **What one move does to a round.**  Either the turn stays where it is; or it comes to the first
of those that are still to come, and the round goes on; or no one is left to come, and the turn is
back. -/
theorem InRound.step {o : TurnOrder} {x : Entry} {done todo : List Entry}
    (hround : InRound o x done todo) (hplaced : o.index = 0 ∨ o.index < o.size) {m : Move}
    (hx : m.keeps x = true) :
    (m.visit o = [] ∧ InRound (m.act o) x (done.filter m.keeps) (todo.filter m.keeps)) ∨
      (∃ y rest, todo.filter m.keeps = y :: rest ∧ m.visit o = [y] ∧
        InRound (m.act o) x (done.filter m.keeps ++ [y]) rest) ∨
      (todo.filter m.keeps = [] ∧ m.visit o = [x] ∧
        InRound (m.act o) x [] (done.filter m.keeps)) := by
  obtain ⟨held, holder, hheld, hqueue⟩ := hround
  cases m with
  | advance =>
    have hall : ∀ l : List Entry, l.filter Move.advance.keeps = l :=
      fun l => List.filter_eq_self.2 fun _ _ => rfl
    obtain ⟨e, o', hadvance, hqueue', hhead⟩ := TurnOrder.queue_advance hqueue
    simp only [Move.visit, Move.act, hadvance, hall]
    rw [List.append_assoc, ← hheld] at hqueue' hhead
    rcases todo with _ | ⟨y, rest⟩
    · obtain rfl := Option.some.inj hhead
      exact Or.inr (Or.inr ⟨rfl, rfl, inRound_start hqueue'⟩)
    · obtain rfl := Option.some.inj hhead
      refine Or.inr (Or.inl ⟨y, rest, rfl, rfl, x :: done, y, rfl, ?_⟩)
      rw [hqueue']
      rfl
  | remove name =>
    have hqueue' := Move.queue_act_remove hplaced name
    have hfilter := congrArg (List.filter (Move.remove name).keeps) hheld
    rw [List.filter_cons_of_pos hx, List.filter_append] at hfilter
    rw [hqueue] at hqueue'
    by_cases hholder : (Move.remove name).keeps holder = true
    · rw [List.filter_cons_of_pos hholder, List.filter_append] at hqueue'
      rw [List.filter_cons_of_pos hholder] at hfilter
      exact Or.inl ⟨Move.visit_remove_of_keeps hplaced hqueue hholder,
        held.filter (Move.remove name).keeps, holder, hfilter, hqueue'⟩
    · -- Those who have had the turn before, from `x` on, are behind those still to come.
      rw [List.filter_cons_of_neg hholder, List.filter_nil, List.append_nil] at hfilter
      rw [List.filter_cons_of_neg hholder, List.filter_append, ← hfilter] at hqueue'
      have hvisit : ∀ {y l}, ((Move.remove name).act o).queue = y :: l →
          (Move.remove name).visit o = [y] :=
        Move.visit_remove_of_not_keeps hplaced hqueue hholder
      rcases htodo : todo.filter (Move.remove name).keeps with _ | ⟨y, rest⟩
      · rw [htodo] at hqueue'
        exact Or.inr (Or.inr ⟨rfl, hvisit hqueue', inRound_start hqueue'⟩)
      · rw [htodo] at hqueue'
        exact Or.inr (Or.inl ⟨y, rest, rfl, hvisit hqueue',
          x :: done.filter (Move.remove name).keeps, y, rfl, hqueue'⟩)

/-- The entries that are left after moves. -/
def staying (moves : List Move) (o : TurnOrder) (e : Entry) : Bool :=
  decide (e ∈ (actMoves moves o).entries)

/-- Whoever is left after moves was kept by the first of them. -/
theorem filter_staying (m : Move) (moves : List Move) (o : TurnOrder) (l : List Entry) :
    (l.filter m.keeps).filter (staying moves (m.act o)) = l.filter (staying moves (m.act o)) := by
  rw [List.filter_filter]
  refine List.filter_congr fun e _ => ?_
  rw [Bool.eq_iff_iff, Bool.and_eq_true, and_iff_left_iff_imp, staying, decide_eq_true_eq]
  exact fun he => (m.mem_entries_act.1 (mem_entries_of_actMoves he)).2

section Run

variable {x : Entry} {done todo : List Entry} {moves : List Move} {o : TurnOrder}

theorem keeps_of_staying {m : Move} (h : x ∈ (actMoves (m :: moves) o).entries) :
    m.keeps x = true :=
  (m.mem_entries_act.1 (mem_entries_of_actMoves h)).2

/-- As long as the turn comes to no one, moves only take entries out of a round. -/
theorem InRound.of_visits_nil (hround : InRound o x done todo)
    (hplaced : o.index = 0 ∨ o.index < o.size) (hx : x ∈ (actMoves moves o).entries)
    (hvisits : visits moves o = []) :
    InRound (actMoves moves o) x (done.filter (staying moves o))
      (todo.filter (staying moves o)) := by
  induction moves generalizing o done todo with
  | nil =>
    have hall : ∀ l : List Entry, (∀ e ∈ l, e ∈ o.queue) → l.filter (staying [] o) = l := by
      intro l hl
      refine List.filter_eq_self.2 fun e he => ?_
      exact decide_eq_true (TurnOrder.mem_queue.1 (hl e he))
    rw [hall done fun e he => hround.mem_queue (Or.inl he),
      hall todo fun e he => hround.mem_queue (Or.inr he)]
    exact hround
  | cons m moves ih =>
    rw [visits_cons, List.append_eq_nil_iff] at hvisits
    rcases hround.step hplaced (keeps_of_staying hx) with ⟨-, hround'⟩ | ⟨y, rest, -, hvisit, -⟩ |
      ⟨-, hvisit, -⟩
    · have hrest := ih hround' (m.placed_act hplaced) hx hvisits.2
      rw [filter_staying, filter_staying] at hrest
      exact hrest
    · rw [hvisit] at hvisits
      exact absurd hvisits.1 (List.cons_ne_nil _ _)
    · rw [hvisit] at hvisits
      exact absurd hvisits.1 (List.cons_ne_nil _ _)

/-- **What moves do to a round up to its end.**  When the turn is back, all that have had it and
stay stand behind in the order in which they have had it, and it has come only to such as were still
to come. -/
theorem visits_of_inRound (hround : InRound o x done todo)
    (hplaced : o.index = 0 ∨ o.index < o.size) (hx : x ∈ (actMoves moves o).entries)
    {between : List Entry} (hvisits : visits moves o = between ++ [x]) (hfirst : x ∉ between) :
    (actMoves moves o).queue = x :: (done ++ between).filter (staying moves o) ∧
      between.Sublist todo := by
  induction moves generalizing o done todo between with
  | nil => simp at hvisits
  | cons m moves ih =>
    have hplaced' := m.placed_act hplaced
    rw [visits_cons] at hvisits
    have hsublist : (todo.filter m.keeps).Sublist todo := List.filter_sublist
    have hstaying : staying (m :: moves) o = staying moves (m.act o) := rfl
    rcases hround.step hplaced (keeps_of_staying hx) with
      ⟨hvisit, hround'⟩ | ⟨y, rest, htodo, hvisit, hround'⟩ | ⟨-, hvisit, hround'⟩
    · rw [hvisit, List.nil_append] at hvisits
      obtain ⟨hqueue, hbetween⟩ := ih hround' hplaced' hx hvisits hfirst
      refine ⟨?_, hbetween.trans hsublist⟩
      rw [actMoves_cons, hqueue, hstaying, List.filter_append, filter_staying, List.filter_append]
    · rw [hvisit] at hvisits
      rcases between with _ | ⟨z, between⟩
      · -- The turn has come to one who was still to come, and that is not the entry it left.
        obtain ⟨rfl, -⟩ := List.cons.inj hvisits
        exact absurd (hsublist.subset (htodo ▸ List.mem_cons_self)) hround.not_mem_todo
      · obtain ⟨rfl, hrest⟩ := List.cons.inj hvisits
        obtain ⟨hqueue, hbetween⟩ := ih hround' hplaced' hx hrest fun hmem =>
          hfirst (List.mem_cons_of_mem _ hmem)
        refine ⟨?_, ?_⟩
        · rw [actMoves_cons, hqueue, hstaying, List.append_assoc, List.singleton_append,
            List.filter_append, filter_staying, List.filter_append]
        · exact (hbetween.cons_cons y).trans (htodo ▸ hsublist)
    · rw [hvisit] at hvisits
      rcases between with _ | ⟨z, between⟩
      · obtain ⟨-, hnone⟩ := List.cons.inj hvisits
        have hend := queue_of_inRound_nil (hround'.of_visits_nil hplaced' hx hnone)
        refine ⟨?_, List.nil_sublist _⟩
        rw [actMoves_cons, hend, hstaying, filter_staying, List.append_nil]
      · obtain ⟨rfl, -⟩ := List.cons.inj hvisits
        exact absurd List.mem_cons_self hfirst

end Run

/-- **Between two visits to an entry every other one that stays is visited once.**  Moves may begin
at any order whose turn is at an entry.  When `x` has the turn and keeps its place in the order,
those to whom the turn comes until it is back at `x` are some of those who were displayed behind `x`
and then before it, in that sequence, and no one twice.  Of them, those who are still there are all
who are displayed then, again from behind `x` on; so each of them has been visited once. -/
theorem visits_between {o : TurnOrder} (hplaced : o.index < o.size) (before moves : List Move)
    {x : Entry} {between : List Entry}
    (hx : (actMoves before o).current? = some x)
    (hstays : x ∈ (actMoves moves (actMoves before o)).entries)
    (hvisits : visits moves (actMoves before o) = between ++ [x]) (hfirst : x ∉ between) :
    ∃ above below above' below',
      (actMoves before o).display = above ++ x :: below ∧
        between.Sublist (below ++ above) ∧
        (actMoves moves (actMoves before o)).display = above' ++ x :: below' ∧
        between.filter (fun e => decide (e ∈ (actMoves moves (actMoves before o)).display)) =
          below' ++ above' ∧
        ∀ e ∈ (actMoves moves (actMoves before o)).display, e ≠ x → between.count e = 1 := by
  have hplaced₁ := placed_actMoves before (Or.inr hplaced)
  have hplaced₂ := placed_actMoves moves hplaced₁
  rw [← TurnOrder.head?_queue hplaced₁] at hx
  obtain ⟨rest, hqueue⟩ := List.head?_eq_some_iff.1 hx
  obtain ⟨hqueue', hsublist⟩ :=
    visits_of_inRound (inRound_start hqueue) hplaced₁ hstays hvisits hfirst
  obtain ⟨above, below, hdisplay, rfl⟩ := TurnOrder.display_of_queue hplaced₁ hqueue
  obtain ⟨above', below', hdisplay', hrest'⟩ := TurnOrder.display_of_queue hplaced₂ hqueue'
  have hfilter : between.filter
      (fun e => decide (e ∈ (actMoves moves (actMoves before o)).display)) = below' ++ above' := by
    rw [← hrest', List.nil_append]
    exact List.filter_congr fun e _ => by simp only [staying, TurnOrder.mem_display]
  refine ⟨above, below, above', below', hdisplay, hsublist, hdisplay', hfilter, ?_⟩
  intro e he hne
  have hnodup := (actMoves moves (actMoves before o)).nodup_display
  rw [hdisplay', List.nodup_middle, List.nodup_cons] at hnodup
  have hothers : e ∈ below' ++ above' := by
    rw [hdisplay'] at he
    simp only [List.mem_append, List.mem_cons] at he ⊢
    tauto
  have hcount := List.count_eq_one_of_mem (List.nodup_append_comm.1 hnodup.2) hothers
  rw [← hfilter, List.count_filter (by simpa using he)] at hcount
  exact hcount

/-- Three entries, the last of which has the turn. -/
def lastOfThree : TurnOrder :=
  ⟨.ofList [("A", ⟨3, 0⟩), ("B", ⟨2, 1⟩), ("C", ⟨1, 2⟩)], 2, 3⟩

/-- The turn comes to the first of three, who is removed, so the second has it before the last has
it again. -/
theorem visits_between_removed_holder :
    visits [.advance, .remove "A", .advance] lastOfThree =
        [⟨"A", 3, 0⟩, ⟨"B", 2, 1⟩] ++ [⟨"C", 1, 2⟩] ∧
      ∃ above' below',
        (actMoves [.advance, .remove "A", .advance] lastOfThree).display =
            above' ++ ⟨"C", 1, 2⟩ :: below' ∧
          ([⟨"A", 3, 0⟩, ⟨"B", 2, 1⟩] : List Entry).filter (fun e => decide
            (e ∈ (actMoves [.advance, .remove "A", .advance] lastOfThree).display)) =
              below' ++ above' := by
  have hvisits : visits [.advance, .remove "A", .advance] lastOfThree =
      [⟨"A", 3, 0⟩, ⟨"B", 2, 1⟩] ++ [⟨"C", 1, 2⟩] := by
    simp +decide [lastOfThree, Move.visit, Move.act, TurnOrder.advance, TurnOrder.remove,
      TurnOrder.current?, TurnOrder.display_of_pairwise]
  have hentries : (actMoves [.advance, .remove "A", .advance] lastOfThree).entries =
      [⟨"B", 2, 1⟩, ⟨"C", 1, 2⟩] := by
    simp +decide [lastOfThree, Move.act, TurnOrder.advance, TurnOrder.remove, TurnOrder.current?,
      TurnOrder.display_of_pairwise]
  have hholder : lastOfThree.current? = some ⟨"C", 1, 2⟩ := by
    rw [TurnOrder.current?, TurnOrder.display_of_pairwise (by decide)]
    rfl
  have hstays : ⟨"C", 1, 2⟩ ∈ (actMoves [.advance, .remove "A", .advance] lastOfThree).entries := by
    rw [hentries]
    decide
  obtain ⟨above, below, above', below', -, -, hdisplay, hfilter, -⟩ :=
    visits_between (o := lastOfThree) (by decide) [] [.advance, .remove "A", .advance]
      (x := ⟨"C", 1, 2⟩) hholder hstays hvisits (by decide)
  exact ⟨hvisits, above', below', hdisplay, hfilter⟩

end Tabletop.Initiative
