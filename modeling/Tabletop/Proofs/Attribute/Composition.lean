import Tabletop.Proofs.Attribute.Application

/-!
# Operations in two steps

Operations may be applied all at once, or some of them first and the others after them.  The two
ways take turns differently: at once, all amounts are rolled before anything is written, while in
two steps the amounts of the second step are rolled when the values of the first are on the card.
The outcome is the same, since no roll looks at the cards and no write takes a die.

Only a refusal tells the two ways apart.  If the second step is refused, the values of the first
stay on the card; applied at once, the same operations write nothing.

## Main results

* `rollAmounts_append` — amounts are rolled one list after the other.
* `applyTo_append_apply` — what is left for the second step when the first one is over.
* `applyTo_append` — **operations may be applied in two steps.**
-/

namespace Tabletop.Attribute

open Dice

/-- The amounts of two lists are rolled one list after the other. -/
theorem rollAmounts_append (source : Source) (ops ops' : List Operation) :
    rollAmounts source (ops ++ ops') = (do
      let rs ← rollAmounts source ops
      let rs' ← rollAmounts source ops'
      pure (rs ++ rs')) := by
  induction ops with
  | nil => simp only [List.nil_append, rollAmounts, pure_bind, bind_pure]
  | cons op ops ih => simp only [List.cons_append, rollAmounts, ih, bind_assoc, pure_bind]

/-- **What is left for the second step**: it goes on from the cards and the dice that the first one
has left.  If it is refused, nothing has been written. -/
theorem applyTo_append_apply (source : Source) (cap : Int) (card : String)
    (first second : List Operation) (game : Game) :
    applyTo source cap card (first ++ second) game =
      match applyTo source cap card first game with
      | (.error e, game') => (.error e, game')
      | (.ok report, between) =>
        match applyTo source cap card second between with
        | (.error e, after) => (.error e, { after with cards := game.cards })
        | (.ok report', after) => (.ok ⟨card, report.changes ++ report'.changes⟩, after) := by
  rw [applyTo_apply, applyTo_apply, rollAmounts_append, Command.bind_apply]
  rcases rollAmounts source first game.supply with ⟨e | rs, supply⟩
  · rfl
  simp only [applyTo_apply, Command.bind_apply]
  rcases rollAmounts source second supply with ⟨e | rs', supply'⟩
  · rfl
  · simp only [Command.pure_apply, carryOut_append]

section Steps

variable {source : Source} {cap : Int} {card : String} {first second : List Operation}
  {game game' : Game}

/-- Operations are applied together if they can be applied in two steps. -/
theorem applyTo_append_eq_ok {report : Report} :
    applyTo source cap card (first ++ second) game = (.ok report, game') ↔
      ∃ report₁ between report₂,
        applyTo source cap card first game = (.ok report₁, between) ∧
          applyTo source cap card second between = (.ok report₂, game') ∧
          report = ⟨card, report₁.changes ++ report₂.changes⟩ := by
  rw [applyTo_append_apply]
  constructor
  · intro h
    rcases hfirst : applyTo source cap card first game with ⟨e | report₁, between⟩
    · simp only [hfirst] at h
      cases h
    rcases hsecond : applyTo source cap card second between with ⟨e | report₂, after⟩
    · simp only [hfirst, hsecond] at h
      cases h
    · simp only [hfirst, hsecond] at h
      cases h
      exact ⟨report₁, between, report₂, rfl, hsecond, rfl⟩
  · rintro ⟨report₁, between, report₂, hfirst, hsecond, rfl⟩
    simp only [hfirst, hsecond]

/-- Operations are refused together if one of two steps is refused, but without a trace on the
cards. -/
theorem applyTo_append_eq_error {e : Error} :
    applyTo source cap card (first ++ second) game = (.error e, game') ↔
      applyTo source cap card first game = (.error e, game') ∨
        ∃ report₁ between after,
          applyTo source cap card first game = (.ok report₁, between) ∧
            applyTo source cap card second between = (.error e, after) ∧
            game' = { after with cards := game.cards } := by
  rw [applyTo_append_apply]
  constructor
  · intro h
    rcases hfirst : applyTo source cap card first game with ⟨e₁ | report₁, between⟩
    · simp only [hfirst] at h
      exact Or.inl h
    rcases hsecond : applyTo source cap card second between with ⟨e₂ | report₂, after⟩
    · simp only [hfirst, hsecond] at h
      cases h
      exact Or.inr ⟨report₁, between, after, rfl, hsecond, rfl⟩
    · simp only [hfirst, hsecond] at h
      cases h
  · rintro (hfirst | ⟨report₁, between, after, hfirst, hsecond, rfl⟩)
    · simp only [hfirst]
    · simp only [hfirst, hsecond]

end Steps

/-- **Operations may be applied in two steps.**  Two lists of operations are applied together
exactly if the first list is applied and then the second one, to what the first has left; the cards
and the dice are then the same, and the report has the changes of the first step followed by those
of the second.

They are refused together exactly if one of the steps is refused, with the same error and the same
dice; but then no card is changed, also if it was the second step. -/
theorem applyTo_append (source : Source) (cap : Int) (card : String)
    (first second : List Operation) (game game' : Game) :
    (∀ report, applyTo source cap card (first ++ second) game = (.ok report, game') ↔
      ∃ report₁ between report₂,
        applyTo source cap card first game = (.ok report₁, between) ∧
          applyTo source cap card second between = (.ok report₂, game') ∧
          report = ⟨card, report₁.changes ++ report₂.changes⟩) ∧
      ∀ e, applyTo source cap card (first ++ second) game = (.error e, game') ↔
        applyTo source cap card first game = (.error e, game') ∨
          ∃ report₁ between after,
            applyTo source cap card first game = (.ok report₁, between) ∧
              applyTo source cap card second between = (.error e, after) ∧
              game' = { after with cards := game.cards } :=
  ⟨fun _ => applyTo_append_eq_ok, fun _ => applyTo_append_eq_error⟩

end Tabletop.Attribute
