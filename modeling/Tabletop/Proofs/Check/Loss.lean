import Tabletop.Proofs.Check.Fumble
import Tabletop.Proofs.Check.Sign
import Tabletop.Proofs.Dice.Least
import Tabletop.Proofs.Pool.Spellings

/-!
# What sanity checks make of sanity

A sanity check takes its loss away from sanity, and stops at zero.  The loss is a total of one half
of the cost, so sanity does not rise if no total of that half is negative.  The halves of a cost may
hold a minus, and a half such as `1-2` has a negative total: such a loss is a gain.

## Main definitions

* `Cost.half` — the half of a cost that a level asks for.

## Main results

* `magnitude_mem_totals` — a sanity check loses a total of the half that its level asks for.
* `newValue_le_reference_iff` — sanity rises exactly if the loss is negative.
* `stored_le_of_sanity` — a loss that is not negative makes no stored value larger.
* `sanity_falls` — **no sanity check raises sanity** unless its loss can be negative.
* `sanity_rises` — a cost with a negative loss, with which sanity rises.
-/

namespace Tabletop.Check

open Dice Text

/-- The half of a cost that a level asks for: the second one below a success. -/
def Cost.half (cost : Cost) : Level → String
  | .criticalFail | .fail => cost.failure
  | _ => cost.success

/-- A half of a cost holds no multiplication and no division. -/
theorem Cost.symbol_notMem_half {text : Option String} {cost : Cost}
    (h : Cost.parse text = .ok cost) (level : Level) (s : Scale) :
    s.symbol ∉ (cost.half level).toList := by
  obtain ⟨hsuccess, hfailure⟩ := Cost.parse_eq_ok h
  cases level with
  | criticalFail | fail => exact symbol_notMem_of_loss hfailure s
  | success | hardSuccess | extremeSuccess | criticalSuccess =>
    exact symbol_notMem_of_loss hsuccess s

section Run

variable {setting : Setting} {request : Request} {game game' : Game} {o : Outcome}

/-- **A sanity check loses a total** of the half of its cost that its level asks for; after a
fumble, too. -/
theorem magnitude_mem_totals {cost : Cost} (hsource : setting.source = .evaluator)
    (hrequest : request.purpose.cost? = some cost)
    (hrun : run setting .sanity request game = (.ok o, game')) :
    o.magnitude ∈ totals (cost.half o.level) 100 := by
  obtain ⟨cost', primary, between, hpurpose, -, hloss⟩ := run_sanity_eq_ok hrun
  obtain rfl := Option.some.inj (hpurpose.symm.trans hrequest)
  rw [hsource] at hloss
  rcases hlevel : o.level with _ | _ | _ | _ | _ | _
  · rw [hlevel] at hloss
    obtain ⟨hlargest, hfound, -⟩ := sanityLoss_criticalFail hloss
    exact mem_totals (largest?_of_largest hfound hlargest)
  all_goals
    rw [hlevel] at hloss
    exact ⟨between, _, _, rollStake_eq_ok hloss, rfl⟩

/-- The reference of a check that is not refused is not negative. -/
theorem reference_nonneg_of_run {variety : Variety}
    (hrun : run setting variety request game = (.ok o, game')) : 0 ≤ o.reference := by
  obtain ⟨stake, fromCard, primary, -, hreference, -⟩ := run_stages hrun
  exact reference_nonneg hreference

/-- Sanity is not above the reference exactly if the loss is not negative. -/
theorem newValue_le_reference_iff (hrun : run setting .sanity request game = (.ok o, game')) :
    o.newValue ≤ o.reference ↔ 0 ≤ o.magnitude := by
  have hreference := reference_nonneg_of_run hrun
  rw [(run_eq_ok hrun).1, Variety.newValue]
  omega

/-- **A loss that is not negative** makes no value on any card larger, and adds none. -/
theorem stored_le_of_sanity (hrun : run setting .sanity request game = (.ok o, game'))
    (hloss : 0 ≤ o.magnitude) (card name : String) {new : Int}
    (hnew : game'.cards.get? card name = some new) :
    ∃ old, game.cards.get? card name = some old ∧ new ≤ old := by
  obtain ⟨-, hreference, hwritten⟩ := run_eq_ok hrun
  obtain ⟨hcommitted, hcards⟩ := cards_of_written hreference hwritten
  rw [hcards] at hnew
  split at hnew
  · next hdone =>
    rw [CardStore.get?_write] at hnew
    split at hnew
    · next hhere =>
      obtain rfl := Option.some.inj hnew
      obtain ⟨rfl, rfl⟩ := hhere
      -- A value that was given with the request is never written.
      rcases hreference with hgiven | ⟨-, hfound⟩
      · rw [(hcommitted.1 hdone).1] at hgiven
        cases hgiven
      · exact ⟨o.reference, hfound, (newValue_le_reference_iff hrun).2 hloss⟩
    · exact ⟨new, hnew, Int.le_refl new⟩
  · exact ⟨new, hnew, Int.le_refl new⟩

/-- **No sanity check raises sanity unless its loss can be negative.**  Let a sanity check with a
cost that was read not be refused, whatever its reference, its house rule and its dice.  Then it
loses a total of one half of the cost, the value after it is not negative, and that value is above
the reference only if the loss was negative.  If no total of that half is negative, neither is the
loss, the value after the check is at most the reference, and no value on any card is larger than
before.  This is so for every half without a minus, and in general exactly if the total is not
negative for which every die shows a one, or all its faces where it is subtracted; that total is
found, unless one of its sums is too large. -/
theorem sanity_falls {text : Option String} {cost : Cost} (hsource : setting.source = .evaluator)
    (hcost : Cost.parse text = .ok cost) (hrequest : request.purpose.cost? = some cost)
    (hrun : run setting .sanity request game = (.ok o, game')) :
    (o.magnitude ∈ totals (cost.half o.level) 100 ∧ 0 ≤ o.newValue ∧
        (o.newValue ≤ o.reference ↔ 0 ≤ o.magnitude)) ∧
      ((∀ n ∈ totals (cost.half o.level) 100, 0 ≤ n) →
        0 ≤ o.magnitude ∧ o.newValue ≤ o.reference ∧
          ∀ card name new, game'.cards.get? card name = some new →
            ∃ old, game.cards.get? card name = some old ∧ new ≤ old) ∧
      ('-' ∉ (cost.half o.level).toList → ∀ n ∈ totals (cost.half o.level) 100, 0 ≤ n) ∧
      ((∃ m, smallest? (cost.half o.level) 100 = .ok m ∧
          ((∀ n ∈ totals (cost.half o.level) 100, 0 ≤ n) ↔ 0 ≤ m)) ∨
        smallest? (cost.half o.level) 100 = .error .totalTooLarge) := by
  have hmem := magnitude_mem_totals hsource hrequest hrun
  have hfalls := newValue_le_reference_iff hrun
  have hlow : 0 ≤ o.newValue := by
    rw [(run_eq_ok hrun).1]
    exact Int.le_max_left 0 _
  refine ⟨⟨hmem, hlow, hfalls⟩, ?_, totals_nonneg_of_unsigned, ?_⟩
  · intro hnonneg
    have hloss := hnonneg _ hmem
    exact ⟨hloss, hfalls.2 hloss, fun card name _ => stored_le_of_sanity hrun hloss card name⟩
  · have hscale := Cost.symbol_notMem_half hcost o.level
    rcases smallest?_of_mem_totals hscale hmem with ⟨m, hm⟩ | hlarge
    · exact Or.inl ⟨m, hm, totals_nonneg_iff hm hscale⟩
    · exact Or.inr hlarge

end Run

/-- A check of a card with a sanity of forty, on dice that show a number. -/
def fortyOnCard (cost : Cost) (dice : List Int) : Except Error Outcome × Game :=
  run ⟨.evaluator, .builtIn, .rule0, 100⟩ .sanity ⟨"", sanity, none, "", .sanity (some cost)⟩
    ⟨CardStore.empty.write "" sanity 40, .empty, .ofList dice⟩

/-- The die of which another one is taken away shows most, and the loss is not negative: a half with
a minus that has no negative total. -/
theorem sanity_falls_subtracted :
    ∃ cost o game', Cost.parse (some "0/1d6+3-1d4") = .ok cost ∧
      fortyOnCard cost [90, 1, 4] = (.ok o, game') ∧ o.level = .fail ∧
      smallest? cost.failure 100 = .ok 0 ∧ 0 ≤ o.magnitude ∧ o.newValue ≤ o.reference := by
  have hcost : Cost.parse (some "0/1d6+3-1d4") = .ok ⟨"0", "1d6+3-1d4"⟩ := by decide
  obtain ⟨o, game', hrun, hlevel⟩ : ∃ o game',
      fortyOnCard ⟨"0", "1d6+3-1d4"⟩ [90, 1, 4] = (.ok o, game') ∧ o.level = .fail := by
    rw [fortyOnCard, Pool.builtIn_eq]
    exact ⟨_, _, rfl, rfl⟩
  have hsmallest : smallest? "1d6+3-1d4" 100 = .ok 0 := by decide +kernel
  obtain ⟨-, hbounds, -, hleast⟩ := sanity_falls rfl hcost rfl hrun
  rw [hlevel, Cost.half, hsmallest] at hleast
  rcases hleast with ⟨m, hm, hnonneg⟩ | hlarge
  · cases hm
    rw [hlevel] at hbounds
    obtain ⟨hloss, hfalls, -⟩ := hbounds (hnonneg.2 (Int.le_refl 0))
    exact ⟨_, o, game', hcost, hrun, hlevel, hsmallest, hloss, hfalls⟩
  · cases hlarge

/-- **With a negative loss sanity rises.**  The success half loses one minus two, and the card has
one more than before. -/
theorem sanity_rises :
    ∃ cost o game', Cost.parse (some "1-2/0") = .ok cost ∧
      fortyOnCard cost [10] = (.ok o, game') ∧ o.reference = 40 ∧ o.magnitude = -1 ∧
      o.newValue = 41 ∧ o.committed = true ∧ game'.cards.get? "" sanity = some 41 := by
  refine ⟨⟨"1-2", "0"⟩, ?_⟩
  rw [fortyOnCard, Pool.builtIn_eq]
  exact ⟨_, _, by decide, rfl, rfl, rfl, rfl, rfl, rfl⟩

end Tabletop.Check
