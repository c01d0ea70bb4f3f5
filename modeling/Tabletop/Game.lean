import Tabletop.Card.Store
import Tabletop.Command

/-!
# The state of a game

What commands read and change: the character cards, the stored turn order of each channel, and the
supply of dice.

## Main definitions

* `Game` — the state.
* `Play` — a command that may change the state and may be refused.
* `Play.ofCommand` — a command that only rolls dice.
-/

namespace Tabletop

/-- The state that commands work on. -/
structure Game where
  /-- The character cards. -/
  cards : CardStore
  /-- The stored turn order of each channel that has one. -/
  orders : InsertionMap String String
  /-- The supply of dice. -/
  supply : Dice.Supply

/-- A command on a game; what it has changed stays changed when it is refused. -/
abbrev Play := ExceptT Error (StateM Game)

namespace Play

/-- A command that only rolls dice. -/
def ofCommand {α : Type} (command : Command α) : Play α := fun game =>
  let (result, supply) := command game.supply
  (result, { game with supply := supply })

/-- A command that only works on the cards. -/
def onCards {α : Type} (f : CardStore → α × CardStore) : Play α := fun game =>
  let (result, cards) := f game.cards
  (.ok result, { game with cards := cards })

/-- The second of two commands works on what the first has left, unless the first is refused. -/
theorem bind_apply {α β : Type} (first : Play α) (second : α → Play β) (game : Game) :
    (first >>= second) game =
      match first game with
      | (.ok a, game') => second a game'
      | (.error e, game') => (.error e, game') := by
  rcases h : first game with ⟨e | a, game'⟩
  · exact Effect.bind_of_error h second
  · exact Effect.bind_of_ok h second

/-- The answer of a command may be changed behind it. -/
theorem map_apply {α β : Type} (f : α → β) (command : Play α) (game : Game) :
    (f <$> command) game = ((command game).1.map f, (command game).2) :=
  Effect.map_apply f command game

/-- A command that only answers changes nothing. -/
theorem ofExcept_apply {α : Type} (r : Except Error α) (game : Game) :
    (ExceptT.mk (pure r) : Play α) game = (r, game) := rfl

/-- Looking at the state changes nothing. -/
theorem get_apply (game : Game) : (get : Play Game) game = (.ok game, game) := rfl

/-- What a command that only rolls dice does to the state. -/
@[simp] theorem ofCommand_apply {α : Type} (command : Command α) (game : Game) :
    ofCommand command game =
      ((command game.supply).1, { game with supply := (command game.supply).2 }) := rfl

/-- What a command that only works on the cards does to the state. -/
@[simp] theorem onCards_apply {α : Type} (f : CardStore → α × CardStore) (game : Game) :
    onCards f game = (.ok (f game.cards).1, { game with cards := (f game.cards).2 }) := rfl

end Play

end Tabletop
