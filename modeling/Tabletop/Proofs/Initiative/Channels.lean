import Tabletop.Initiative.Channel
import Tabletop.Proofs.Initiative.Ranked

/-!
# The commands on a stored turn order

A command loads the turn order of its channel, works on it and saves it.  Here is what is stored
for an order, that it is loaded as it was, and what each command does to the state of the game
when the order of its channel is known, or cannot be read.

## Main definitions

* `TurnOrder.stored?` — the text that is stored for an order.
* `Kept` — the orders that commands build.

## Main results

* `load_of_stored?` — **what is stored for an order is loaded as that order.**
* `rollInto_apply`, `addTo_apply`, … — each command on a known order.
-/

namespace Tabletop.Initiative

open Json

/-! ### Storing and loading -/

/-- The text that is stored for a turn order, if it has entries. -/
def TurnOrder.stored? (o : TurnOrder) : Option String :=
  if o.size = 0 then none else some o.render

theorem get?_save (stored : Stored) (channel channel' : String) (o : TurnOrder) :
    (save stored channel o).get? channel' =
      if channel = channel' then o.stored? else stored.get? channel' := by
  unfold save TurnOrder.stored?
  split
  · exact stored.get?_erase channel channel'
  · exact stored.get?_put channel channel' o.render

/-- The turn orders that commands build from the empty one.  An order that has become empty is
replaced by a new one. -/
structure Kept (o : TurnOrder) : Prop where
  ranked : o.Ranked
  fresh : o.size = 0 → o = .empty

theorem kept_empty : Kept .empty where
  ranked := TurnOrder.ranked_empty
  fresh := fun _ => rfl

/-- The text of an order is not empty, as it is an object. -/
theorem isEmpty_render (o : TurnOrder) : o.render.isEmpty = false := by
  rw [Bool.eq_false_iff]
  intro hempty
  have hnil := String.toList_eq_nil_iff.2 (String.isEmpty_iff.1 hempty)
  rw [TurnOrder.render, Value.render, String.toList_ofList] at hnil
  cases hnil

/-- **What is stored for an order is loaded as that order**, unless one of its numbers is too
long. -/
theorem load_of_stored? {o : TurnOrder} {stored : Stored} {channel : String} (ho : Kept o)
    (hstored : stored.get? channel = o.stored?) :
    load stored channel = if o.Legible then .ok o else .error TurnOrder.unreadable := by
  unfold TurnOrder.stored? at hstored
  unfold load
  by_cases hsize : o.size = 0
  · have hlegible : TurnOrder.empty.Legible := by decide
    rw [if_pos hsize] at hstored
    rw [hstored, ho.fresh hsize, if_pos hlegible]
  · rw [if_neg hsize] at hstored
    rw [hstored]
    show (if o.render.isEmpty then Except.ok TurnOrder.empty else TurnOrder.read o.render) = _
    rw [isEmpty_render, if_neg Bool.false_ne_true, ho.ranked.read_render]

/-! ### The commands on a stored order -/

theorem loadOrder_apply (channel : String) (game : Game) :
    loadOrder channel game = (load game.orders channel, game) := rfl

theorem giveBack_apply {α : Type} (r : Except Error α) (game : Game) :
    giveBack r game = (r, game) := rfl

section Commands

variable {game : Game} {channel : String} {o : TurnOrder}

/-- A command that starts by loading an order is refused if that cannot be read. -/
theorem bind_of_load_error {α : Type} {e : Error} (h : load game.orders channel = .error e)
    (next : TurnOrder → Play α) : (loadOrder channel >>= next) game = (.error e, game) := by
  rw [Play.bind_apply, loadOrder_apply, h]

theorem addTo_apply (h : load game.orders channel = .ok o) (name : String) (value : Int) :
    addTo channel name value game =
      match o.add name value with
      | .ok (_, o') => (.ok o'.slots, { game with orders := save game.orders channel o' })
      | .error e => (.error e, game) := by
  rw [addTo, Play.bind_apply, loadOrder_apply, h]
  show (giveBack (o.add name value) >>= _) game = _
  rw [Play.bind_apply, giveBack_apply]
  rcases o.add name value with e | ⟨e, o'⟩
  · rfl
  · rfl

theorem rollInto_apply (h : load game.orders channel = .ok o) (source : Dice.Source)
    (words : List String) (usual : String) :
    rollInto source channel words usual game =
      match rollInitiative source words usual game.supply with
      | (.ok r, supply) =>
        match o.add r.name r.value with
        | .ok (_, o') => (.ok (r, o'.slots),
            { game with supply := supply, orders := save game.orders channel o' })
        | .error e => (.error e, { game with supply := supply })
      | (.error e, supply) => (.error e, { game with supply := supply }) := by
  rw [rollInto, Play.bind_apply, Play.ofCommand_apply]
  rcases rollInitiative source words usual game.supply with ⟨e | r, supply⟩
  · rfl
  · -- The dice are gone before the order is loaded.
    have hload : load { game with supply := supply }.orders channel = .ok o := h
    show (addTo channel r.name r.value >>= _) { game with supply := supply } = _
    rw [Play.bind_apply, addTo_apply hload]
    show _ = (match o.add r.name r.value with | .ok (_, o') => _ | .error e => _)
    rcases o.add r.name r.value with e | ⟨e, o'⟩
    · rfl
    · rfl

theorem removeFrom_apply (h : load game.orders channel = .ok o) (name : String) :
    removeFrom channel name game =
      if o.size = 0 then (.error .emptyOrder, game)
      else (.ok (o.remove name).1,
        if (o.remove name).1 then { game with orders := save game.orders channel (o.remove name).2 }
        else game) := by
  rw [removeFrom, Play.bind_apply, loadOrder_apply, h]
  show (if o.size = 0 then throw Error.emptyOrder else _ : Play Bool) game = _
  by_cases hsize : o.size = 0
  · rw [if_pos hsize, if_pos hsize]
    rfl
  · rw [if_neg hsize, if_neg hsize]
    rcases hremove : o.remove name with ⟨found, o'⟩
    cases found
    · rfl
    · rfl

theorem nextTurn_apply (h : load game.orders channel = .ok o) :
    nextTurn channel game =
      match o.advance with
      | .ok (e, o') => (.ok e, { game with orders := save game.orders channel o' })
      | .error e => (.error e, game) := by
  rw [nextTurn, Play.bind_apply, loadOrder_apply, h]
  show (giveBack o.advance >>= _) game = _
  rw [Play.bind_apply, giveBack_apply]
  rcases o.advance with e | ⟨e, o'⟩
  · rfl
  · rfl

theorem clearAll_apply (h : load game.orders channel = .ok o) :
    clearAll channel game =
      (.ok o.clear.1,
        if o.clear.1 then { game with orders := game.orders.erase channel } else game) := by
  rw [clearAll, Play.bind_apply, loadOrder_apply, h]
  show (if o.clear.1 then _ else _ : Play Bool) game = _
  by_cases had : o.clear.1 = true
  · rw [if_pos had, if_pos had]
    rfl
  · rw [if_neg had, if_neg had]
    rfl

theorem showSlots_apply (h : load game.orders channel = .ok o) :
    showSlots channel game = (.ok o.slots, game) := by
  rw [showSlots, Play.bind_apply, loadOrder_apply, h]
  rfl

end Commands

end Tabletop.Initiative
