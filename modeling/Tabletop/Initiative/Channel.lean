import Tabletop.Game
import Tabletop.Initiative.Roll
import Tabletop.Initiative.Snapshot

/-!
# Turn orders of channels

Each channel has a turn order of its own.  A command reads the stored order of its channel, works
on it and stores it again; an order without entries is not kept.  A command that is refused, or
that changes nothing, stores nothing.

## Main definitions

* `load`, `save` — the order of a channel.
* `rollInto`, `addTo`, `removeFrom`, `nextTurn`, `clearAll`, `showSlots` — the commands.
-/

namespace Tabletop.Initiative

/-- The stored orders, by channel. -/
abbrev Stored := InsertionMap String String

/-- The turn order of a channel; it is empty if nothing is stored. -/
def load (stored : Stored) (channel : String) : Except Error TurnOrder :=
  match stored.get? channel with
  | none => .ok .empty
  | some text => if text.isEmpty then .ok .empty else TurnOrder.read text

/-- Stores the turn order of a channel, or drops it if it has no entries. -/
def save (stored : Stored) (channel : String) (o : TurnOrder) : Stored :=
  if o.size = 0 then stored.erase channel else stored.put channel o.render

/-- Loads the turn order of a channel. -/
def loadOrder (channel : String) : Play TurnOrder := do
  let game ← get
  ExceptT.mk (pure (load game.orders channel))

/-- Saves the turn order of a channel. -/
def saveOrder (channel : String) (o : TurnOrder) : Play Unit :=
  modify fun game => { game with orders := save game.orders channel o }

/-- A result that changes nothing. -/
def giveBack {α : Type} (r : Except Error α) : Play α := ExceptT.mk (pure r)

/-- Adds a name to the order of a channel and shows the order. -/
def addTo (channel name : String) (value : Int) : Play (List Slot) := do
  let o ← loadOrder channel
  -- A name that is refused leaves what is stored as it was.
  let (_, o') ← giveBack (o.add name value)
  saveOrder channel o'
  pure o'.slots

/-- Rolls initiative as the words of a command ask, adds it to the order and shows the order. -/
def rollInto (source : Dice.Source) (channel : String) (words : List String) (usual : String) :
    Play (InitiativeRoll × List Slot) := do
  -- The dice are gone even if the order of the channel cannot be read.
  let r ← Play.ofCommand (rollInitiative source words usual)
  let slots ← addTo channel r.name r.value
  pure (r, slots)

/-- Removes a name from the order of a channel and says whether it was there. -/
def removeFrom (channel name : String) : Play Bool := do
  let o ← loadOrder channel
  if o.size = 0 then throw .emptyOrder
  else
    let (found, o') := o.remove name
    if found then saveOrder channel o'
    pure found

/-- Passes the turn of a channel on, and says who has it. -/
def nextTurn (channel : String) : Play Entry := do
  let o ← loadOrder channel
  let (entry, o') ← giveBack o.advance
  saveOrder channel o'
  pure entry

/-- Drops the order of a channel and says whether it had entries. -/
def clearAll (channel : String) : Play Bool := do
  let o ← loadOrder channel
  let (had, _) := o.clear
  if had then modify fun game => { game with orders := game.orders.erase channel }
  pure had

/-- Shows the order of a channel. -/
def showSlots (channel : String) : Play (List Slot) := do
  let o ← loadOrder channel
  pure o.slots

end Tabletop.Initiative
