import Mathlib.Data.List.TakeWhile
import Tabletop.Proofs.Check.Commitment
import Tabletop.Proofs.Dice.Unsigned

/-!
# No check makes a value negative

A check refuses a reference below zero.  A sanity check stops at zero, and a skill grows by dice
that are written without a minus.  So the value after a check is not negative, and a check is
refused for a value on the card only if that value is below zero, or zero where sanity is at stake.

## Main results

* `Formula.ofChars?_unsigned` — a formula holds no minus.
* `newValue_nonneg` — **the value after a check is not negative.**
* `run_refused_reference` — which value on the card a check refuses.
-/

namespace Tabletop.Check

open Dice Text

/-! ### Formulas -/

theorem isDice_chars {cs : List Char} (h : isDice cs = true) :
    ∀ c ∈ cs, isDigit c = true ∨ c = 'd' ∨ c = 'D' := by
  intro c hc
  rw [← List.takeWhile_append_dropWhile (p := isDigit) (l := cs), List.mem_append] at hc
  rcases hc with hcount | hrest
  · exact Or.inl (List.mem_takeWhile_imp hcount)
  · unfold isDice at h
    split at h
    · next letter faces heq =>
      rw [heq] at hrest
      simp only [Bool.and_eq_true, Bool.or_eq_true, beq_iff_eq, List.all_eq_true] at h
      rcases List.mem_cons.1 hrest with rfl | hface
      · exact Or.inr h.1.1
      · exact Or.inl (h.2 c hface)
    · cases h

/-- **A formula holds no minus.** -/
theorem Formula.ofChars?_unsigned {cs : List Char} {f : Formula}
    (h : Formula.ofChars? cs = some f) : '-' ∉ f.success.toList := by
  unfold Formula.ofChars? at h
  split at h
  · split at h
    · split at h
      · next hdice =>
        cases h
        rw [Bool.and_eq_true] at hdice
        rw [String.toList_ofList]
        intro hminus
        rcases isDice_chars hdice.1 '-' hminus with hdigit | hletter | hletter
        · exact absurd hdigit (by decide)
        · exact absurd hletter (by decide)
        · exact absurd hletter (by decide)
      · cases h
    · cases h
  · cases h

/-- A sanity check has no formula. -/
theorem sanityRequest_unsigned {card : String} {words : List String} {request : Request}
    (h : sanityRequest card words = .ok request) :
    ∀ f ∈ request.purpose.formula?, '-' ∉ f.success.toList := by
  obtain ⟨-, -, cost, hpurpose⟩ := sanityRequest_eq_ok h
  intro f hf
  rw [hpurpose] at hf
  cases hf

/-- The formula of a growth check holds no minus. -/
theorem growthRequest_unsigned {card : String} {words : List String} {request : Request}
    (h : growthRequest card words = .ok request) :
    ∀ f ∈ request.purpose.formula?, '-' ∉ f.success.toList := by
  obtain ⟨-, -, formula, hpurpose, hformula⟩ := growthRequest_eq_ok h
  intro f hf
  rw [hpurpose] at hf
  obtain ⟨cs, hcs⟩ := hformula f hf
  exact Formula.ofChars?_unsigned hcs

/-! ### Values after checks -/

theorem growthGain_nonneg {source : Source} (hsource : source.IsUsual) {formula : Option Formula}
    (hformula : ∀ f ∈ formula, '-' ∉ f.success.toList) {level : Level} {supply supply' : Supply}
    {magnitude : Int} {detail : String}
    (h : growthGain source formula level supply = (.ok (magnitude, detail), supply')) :
    0 ≤ magnitude := by
  unfold growthGain at h
  split at h
  · split at h
    · next f =>
      exact Source.total_nonneg hsource (hformula f rfl) (rollStake_eq_ok h)
    · exact Source.total_nonneg hsource (by decide) (rollStake_eq_ok h)
  · cases h
    exact Int.le_refl 0

section Reference

variable {variety : Variety} {request : Request} {name : String} {store : CardStore}

theorem Variety.check_nonneg {n r : Int} (h : variety.check n = .ok r) : 0 ≤ r := by
  obtain rfl := Variety.check_eq_ok h
  unfold Variety.check refuseBelow at h
  split at h
  · cases h
  · next hbound => omega

theorem reference_nonneg {reference : Int} {fromCard : Bool}
    (h : findReference variety request name store = .ok (reference, fromCard)) : 0 ≤ reference := by
  unfold findReference at h
  split at h
  · next n hexplicit =>
    rcases hcheck : variety.check n with e | r
    · rw [hcheck] at h
      cases h
    · rw [hcheck] at h
      cases h
      exact Variety.check_nonneg hcheck
  · split at h
    · next n hvalue =>
      rcases hcheck : variety.check n with e | r
      · rw [hcheck] at h
        cases h
      · rw [hcheck] at h
        cases h
        exact Variety.check_nonneg hcheck
    · cases h

/-- A value on the card is refused if it is below zero, or zero where sanity is at stake. -/
theorem findReference_refused {shown : String} (hexplicit : request.explicit = none)
    (h : findReference variety request name store = .error (.range (.reference shown))) :
    ∃ n, store.get? request.card name = some n ∧ shown = intText n ∧
      (n < 0 ∨ n = 0 ∧ variety = .sanity) := by
  unfold findReference at h
  rw [hexplicit] at h
  rcases hvalue : store.get? request.card name with _ | n
  · simp only [hvalue] at h
    cases h
  · simp only [hvalue, Variety.check, refuseBelow] at h
    split at h
    · next hbound =>
      cases h
      refine ⟨n, rfl, rfl, ?_⟩
      cases variety with
      | sanity =>
        rcases hbound with hbelow | ⟨hzero, -⟩
        · exact Or.inl hbelow
        · exact Or.inr ⟨hzero, rfl⟩
      | growth =>
        rcases hbound with hbelow | ⟨-, hallowed⟩
        · exact Or.inl hbelow
        · exact absurd rfl hallowed
    · cases h

end Reference

theorem Variety.stake_eq_error {variety : Variety} {request : Request} {e : Error}
    (h : variety.stake request = .error e) : e = .format .missingCost := by
  cases variety with
  | sanity =>
    simp only [stake] at h
    split at h
    · cases h
    · exact (Except.error.inj h).symm
  | growth => cases h

section Run

variable {setting : Setting} {variety : Variety} {request : Request} {game game' : Game}

/-- **The value after a check is not negative.** -/
theorem newValue_nonneg (hsource : setting.source.IsUsual)
    (hformula : ∀ f ∈ request.purpose.formula?, '-' ∉ f.success.toList) {o : Outcome}
    (h : run setting variety request game = (.ok o, game')) : 0 ≤ o.newValue := by
  obtain ⟨stake, fromCard, primary, hstake, hreference, hroll, -, hvalue, -⟩ := run_stages h
  rw [hvalue]
  cases variety with
  | sanity => exact Int.le_max_left 0 _
  | growth =>
    obtain ⟨-, between, -, hgain⟩ := rollCheck_eq_ok hroll
    cases hstake
    exact Int.add_nonneg (reference_nonneg hreference) (growthGain_nonneg hsource hformula hgain)

/-- **A check refuses a value on the card** only if it is below zero, or zero where sanity is at
stake. -/
theorem run_refused_reference {shown : String} (hexplicit : request.explicit = none)
    (h : run setting variety request game = (.error (.range (.reference shown)), game')) :
    ∃ n, game.cards.get? request.card (setting.aliases.normalize request.name) = some n ∧
      shown = intText n ∧ (n < 0 ∨ n = 0 ∧ variety = .sanity) := by
  rcases run_refused h with ⟨hstake, -⟩ | ⟨hreference, -⟩ | ⟨stake, reference, supply, hroll, -⟩
  · cases Variety.stake_eq_error hstake
  · exact findReference_refused hexplicit hreference
  · cases aboutReference_of_rollCheck hroll

end Run

end Tabletop.Check
