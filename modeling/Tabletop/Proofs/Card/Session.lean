import Tabletop.Proofs.Card.Writes

/-!
# Cards during a session

Whatever is done during a session, and whichever commands are refused, the cards keep what they were
given: no card holds more attributes than it may, no attribute is ever lost or moved, and a command
changes no card but the one that it is about.

## Main definitions

* `Session.onCards` — a run of commands on cards.
* `Session.cardsAfter` — the cards after a run that starts without cards.

## Main results

* `onCard_size_le`, `onCard_keys_kept`, `onCard_attributes_of_ne`, `onCard_keys_eq` — one command.
* `onCards_size_le`, `onCards_keys_kept` — a run of commands.
* `cardsAfter_kept` — **what holds of the cards all through a session.**
-/

namespace Tabletop

/-- Carries out commands on cards one after another. -/
def Session.onCards (s : Session) :
    List (String × CardAction) → Game → List (String × Except Error CardAnswer) × Game
  | [], game => ([], game)
  | (card, action) :: commands, game =>
    let (answer, game) := s.onCard card action game
    let (answers, game) := s.onCards commands game
    ((card, answer) :: answers, game)

/-- The cards after a run of commands that starts without cards. -/
def Session.cardsAfter (s : Session) (orders : InsertionMap String String) (supply : Dice.Supply)
    (commands : List (String × CardAction)) : CardStore :=
  (s.onCards commands ⟨.empty, orders, supply⟩).2.cards

/-! ### One command -/

section Command

variable (s : Session) (game : Game) (card : String) (action : CardAction)

/-- **A command changes no card but the one that it is about.** -/
theorem onCard_attributes_of_ne {card' : String} (hne : card' ≠ action.target card) :
    (s.onCard card action game).2.cards.attributes card' = game.cards.attributes card' :=
  (onCard_writes s game card action).attributes_of_ne hne

/-- No attribute is lost by a command, and new ones come last. -/
theorem onCard_keys_kept (card' : String) :
    (game.cards.attributes card').keys <+:
      ((s.onCard card action game).2.cards.attributes card').keys := by
  by_cases hcard : card' = action.target card
  · rw [hcard]
    exact (onCard_writes s game card action).keys_kept
  · have hsame := onCard_attributes_of_ne s game card action hcard
    exact hsame ▸ List.prefix_rfl

/-- No card holds more attributes than it may after a command. -/
theorem onCard_size_le (hsize : ∀ card', (game.cards.attributes card').size ≤ s.cap.toNat)
    (card' : String) :
    ((s.onCard card action game).2.cards.attributes card').size ≤ s.cap.toNat := by
  by_cases hcard : card' = action.target card
  · rw [hcard]
    exact (onCard_writes s game card action).size_le (hsize _)
  · rw [onCard_attributes_of_ne s game card action hcard]
    exact hsize card'

/-- **Only writing and directives add attributes.** -/
theorem onCard_keys_eq (hnone : action.addsNone = true) (card' : String) :
    ((s.onCard card action game).2.cards.attributes card').keys =
      (game.cards.attributes card').keys := by
  by_cases hcard : card' = action.target card
  · rw [hcard]
    exact (onCard_writes s game card action).keys_eq (mem_keys_of_written s game hnone)
  · rw [onCard_attributes_of_ne s game card action hcard]

end Command

/-! ### Runs of commands -/

section Run

variable (s : Session)

theorem onCards_cons (card : String) (action : CardAction)
    (commands : List (String × CardAction)) (game : Game) :
    s.onCards ((card, action) :: commands) game =
      ((card, (s.onCard card action game).1) ::
          (s.onCards commands (s.onCard card action game).2).1,
        (s.onCards commands (s.onCard card action game).2).2) := rfl

theorem onCards_append_snd (before after : List (String × CardAction)) (game : Game) :
    (s.onCards (before ++ after) game).2 = (s.onCards after (s.onCards before game).2).2 := by
  induction before generalizing game with
  | nil => rfl
  | cons command before ih =>
    rw [List.cons_append, onCards_cons, onCards_cons]
    exact ih _

theorem onCards_keys_kept (commands : List (String × CardAction)) (game : Game) (card : String) :
    (game.cards.attributes card).keys <+:
      ((s.onCards commands game).2.cards.attributes card).keys := by
  induction commands generalizing game with
  | nil => exact List.prefix_rfl
  | cons command commands ih =>
    rw [onCards_cons]
    exact (onCard_keys_kept s game _ _ card).trans (ih _)

theorem onCards_size_le (commands : List (String × CardAction)) {game : Game}
    (hsize : ∀ card, (game.cards.attributes card).size ≤ s.cap.toNat) (card : String) :
    ((s.onCards commands game).2.cards.attributes card).size ≤ s.cap.toNat := by
  induction commands generalizing game with
  | nil => exact hsize card
  | cons command commands ih =>
    rw [onCards_cons]
    exact ih (onCard_size_le s game _ _ hsize)

variable (orders : InsertionMap String String) (supply : Dice.Supply)

theorem cardsAfter_append (before after : List (String × CardAction)) :
    s.cardsAfter orders supply (before ++ after) =
      (s.onCards after (s.onCards before ⟨.empty, orders, supply⟩).2).2.cards :=
  congrArg Game.cards (onCards_append_snd s before after _)

/-- **What holds of the cards all through a session** that starts without cards, whatever the dice
show and whichever commands are refused.  No card holds more attributes than it may.  The attributes
that a card has stay on it in their order, and new ones come behind them.  A command changes no card
but the one that it is about, and only writing and directives add attributes. -/
theorem cardsAfter_kept (commands : List (String × CardAction)) :
    (∀ card, ((s.cardsAfter orders supply commands).attributes card).size ≤ s.cap.toNat) ∧
      (∀ done, done <+: commands → ∀ card,
        ((s.cardsAfter orders supply done).attributes card).keys <+:
          ((s.cardsAfter orders supply commands).attributes card).keys) ∧
      ∀ done card action, done ++ [(card, action)] <+: commands →
        (∀ card', card' ≠ action.target card →
          (s.cardsAfter orders supply (done ++ [(card, action)])).attributes card' =
            (s.cardsAfter orders supply done).attributes card') ∧
        (action.addsNone = true → ∀ card',
          ((s.cardsAfter orders supply (done ++ [(card, action)])).attributes card').keys =
            ((s.cardsAfter orders supply done).attributes card').keys) := by
  refine ⟨?_, ?_, ?_⟩
  · apply onCards_size_le
    intro card
    exact Nat.zero_le _
  · rintro done ⟨rest, rfl⟩ card
    rw [cardsAfter_append]
    exact onCards_keys_kept s rest _ card
  · intro done card action _
    rw [cardsAfter_append]
    constructor
    · intro card' hne
      exact onCard_attributes_of_ne s _ card action hne
    · intro hnone card'
      exact onCard_keys_eq s _ card action hnone card'

end Run

end Tabletop
