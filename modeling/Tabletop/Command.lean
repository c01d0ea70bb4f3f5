import Tabletop.Dice.Source
import Tabletop.Effect
import Tabletop.Error

/-!
# Commands that roll dice

A command takes dice from the supply and may be refused.  The dice that it has taken are gone also
when it is refused.

## Main definitions

* `Command` — a command that rolls dice.
* `Command.ofRoll` — a roll, with the error that a fault of the dice becomes.
* `Command.ofExcept` — a result that takes no dice.

## Main results

* `Command.bind_apply`, `Command.pure_apply` — what commands do with a given supply.
* `Command.bind_eq_ok`, `Command.bind_eq_error` — what has happened when a command is over.
-/

namespace Tabletop

/-- A command that takes dice from the supply and may be refused. -/
abbrev Command := Dice.Throwing Error

/-- A roll whose faults become errors. -/
def Command.ofRoll {α : Type} (error : Dice.Fault → Error) (roll : Dice.Throwing Dice.Fault α) :
    Command α :=
  fun supply =>
    match roll supply with
    | (.ok a, supply') => (.ok a, supply')
    | (.error f, supply') => (.error (error f), supply')

/-- A result that takes no dice. -/
def Command.ofExcept {α : Type} (r : Except Error α) : Command α := fun supply => (r, supply)

/-- The second of two commands takes the dice that the first has left, unless the first is
refused. -/
theorem Command.bind_apply {α β : Type} (first : Command α) (second : α → Command β)
    (supply : Dice.Supply) :
    (first >>= second) supply =
      match first supply with
      | (.ok a, supply') => second a supply'
      | (.error e, supply') => (.error e, supply') := by
  rcases h : first supply with ⟨e | a, supply'⟩
  · exact Effect.bind_of_error h second
  · exact Effect.bind_of_ok h second

/-- When two commands have given a result, so have both of them. -/
theorem Command.bind_eq_ok {α β : Type} {first : Command α} {second : α → Command β} {b : β}
    {supply supply' : Dice.Supply} (h : (first >>= second) supply = (.ok b, supply')) :
    ∃ a between, first supply = (.ok a, between) ∧ second a between = (.ok b, supply') := by
  rw [bind_apply] at h
  rcases hfirst : first supply with ⟨e | a, between⟩
  · simp only [hfirst] at h
    cases h
  · simp only [hfirst] at h
    exact ⟨a, between, rfl, h⟩

/-- When two commands were refused, the first was, or it gave a result and the second was. -/
theorem Command.bind_eq_error {α β : Type} {first : Command α} {second : α → Command β} {e : Error}
    {supply supply' : Dice.Supply} (h : (first >>= second) supply = (.error e, supply')) :
    first supply = (.error e, supply') ∨
      ∃ a between, first supply = (.ok a, between) ∧ second a between = (.error e, supply') := by
  rw [bind_apply] at h
  rcases hfirst : first supply with ⟨e' | a, between⟩
  · simp only [hfirst] at h
    cases h
    exact Or.inl rfl
  · simp only [hfirst] at h
    exact Or.inr ⟨a, between, rfl, h⟩

/-- A roll that gives a result is not changed. -/
theorem Command.ofRoll_eq_ok {α : Type} {error : Dice.Fault → Error}
    {roll : Dice.Throwing Dice.Fault α} {a : α} {supply supply' : Dice.Supply}
    (h : ofRoll error roll supply = (.ok a, supply')) : roll supply = (.ok a, supply') := by
  unfold ofRoll at h
  rcases hroll : roll supply with ⟨f | b, supply₁⟩
  · simp only [hroll] at h
    cases h
  · simp only [hroll] at h
    cases h
    rfl

/-- The error of a roll is the one that its fault becomes. -/
theorem Command.ofRoll_eq_error {α : Type} {error : Dice.Fault → Error}
    {roll : Dice.Throwing Dice.Fault α} {e : Error} {supply supply' : Dice.Supply}
    (h : ofRoll error roll supply = (.error e, supply')) :
    ∃ f, roll supply = (.error f, supply') ∧ error f = e := by
  unfold ofRoll at h
  rcases hroll : roll supply with ⟨f | a, supply₁⟩
  · simp only [hroll] at h
    cases h
    exact ⟨f, rfl, rfl⟩
  · simp only [hroll] at h
    cases h

/-- A command that only answers takes no dice. -/
theorem Command.pure_apply {α : Type} (a : α) (supply : Dice.Supply) :
    (pure a : Command α) supply = (.ok a, supply) := rfl

end Tabletop
