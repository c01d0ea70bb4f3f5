import Tabletop.Attribute.Apply
import Tabletop.Check.Run
import Tabletop.Initiative.Channel
import Tabletop.Pool.Roll
import Tabletop.Settings

/-!
# Sessions

What players can do during a game.  An action is about a character card or about the turn order of
a channel, and gets an answer unless it is refused.

## Main definitions

* `Session` — what all actions share.
* `CardAction`, `CardAnswer`, `Session.onCard` — actions on cards.
* `ChannelAction`, `ChannelAnswer`, `Session.onChannel` — actions on turn orders.
-/

namespace Tabletop

/-- What all actions of a session share. -/
structure Session where
  /-- What rolls the dice. -/
  source : Dice.Source
  /-- The house rule for checks. -/
  rule : Check.HouseRule
  /-- The number of attributes that a card may hold. -/
  cap : Int

/-- The session that settings describe. -/
def Session.ofSettings (source : Dice.Source) (s : Settings) : Session :=
  ⟨source, s.rule, s.cap⟩

/-! ### Cards -/

/-- An action on a character card. -/
inductive CardAction where
  /-- Writes an attribute. -/
  | set (name : String) (value : Int)
  /-- Reads an attribute. -/
  | get (name : String)
  /-- Applies a directive. -/
  | directive (text : String)
  /-- Lists the attributes by name. -/
  | list
  /-- Rolls a dice pool. -/
  | pool (text : String)
  /-- Runs a sanity check. -/
  | sanityCheck (words : List String)
  /-- Runs a growth check. -/
  | growthCheck (words : List String)
  deriving DecidableEq, Repr

/-- The answer to an action on a character card. -/
inductive CardAnswer where
  /-- Whether a write was accepted. -/
  | written (accepted : Bool)
  /-- The value of an attribute. -/
  | value (n : Option Int)
  /-- The account of a directive. -/
  | report (r : Attribute.Report)
  /-- The attributes by name. -/
  | attributes (pairs : List (String × Int))
  /-- A dice pool that was rolled. -/
  | pool (o : Pool.Outcome)
  /-- The account of a check. -/
  | check (o : Check.Outcome)

/-- What the checks of a session are run with. -/
def Session.checkSetting (s : Session) : Check.Setting :=
  ⟨s.source, .builtIn, s.rule, s.cap⟩

/-- Attributes in the order of their names. -/
def sortByName (pairs : List (String × Int)) : List (String × Int) :=
  pairs.mergeSort fun a b => decide (a.1 ≤ b.1)

/-- Carries out an action on a card. -/
def Session.onCard (s : Session) (card : String) : CardAction → Play CardAnswer
  | .set name value => .written <$> Play.onCards fun store => store.set card name value s.cap
  | .get name => do
      let game ← get
      pure (.value (game.cards.get? card name))
  | .directive text => .report <$> Attribute.applyText s.source .builtIn s.cap card text
  | .list => do
      let game ← get
      pure (.attributes (sortByName (game.cards.attributes card).toList))
  | .pool text => do
      let game ← get
      .pool <$> Play.ofCommand
        (Pool.resolve s.source .builtIn (game.cards.attributes card).toList text)
  | .sanityCheck words => do
      let request ← ExceptT.mk (pure (Check.sanityRequest card words))
      .check <$> Check.run s.checkSetting .sanity request
  | .growthCheck words => do
      let request ← ExceptT.mk (pure (Check.growthRequest card words))
      .check <$> Check.run s.checkSetting .growth request

/-! ### Turn orders -/

/-- An action on the turn order of a channel. -/
inductive ChannelAction where
  /-- Rolls initiative; the name is taken if the words give none. -/
  | roll (words : List String) (usual : String)
  /-- Adds a name with a value. -/
  | add (name : String) (value : Int)
  /-- Removes a name. -/
  | remove (name : String)
  /-- Passes the turn on. -/
  | next
  /-- Drops the order. -/
  | clear
  /-- Shows the order. -/
  | list
  deriving DecidableEq, Repr

/-- The answer to an action on a turn order. -/
inductive ChannelAnswer where
  /-- What was rolled, and the order. -/
  | rolled (r : Initiative.InitiativeRoll) (slots : List Initiative.Slot)
  /-- The order. -/
  | slots (slots : List Initiative.Slot)
  /-- Whether there was something to remove. -/
  | removed (found : Bool)
  /-- Who has the turn. -/
  | entry (e : Initiative.Entry)
  deriving DecidableEq, Repr

/-- Carries out an action on the turn order of a channel. -/
def Session.onChannel (s : Session) (channel : String) : ChannelAction → Play ChannelAnswer
  | .roll words usual => do
      let (r, slots) ← Initiative.rollInto s.source channel words usual
      pure (.rolled r slots)
  | .add name value => .slots <$> Initiative.addTo channel name value
  | .remove name => .removed <$> Initiative.removeFrom channel name
  | .next => .entry <$> Initiative.nextTurn channel
  | .clear => .removed <$> Initiative.clearAll channel
  | .list => .slots <$> Initiative.showSlots channel

end Tabletop
