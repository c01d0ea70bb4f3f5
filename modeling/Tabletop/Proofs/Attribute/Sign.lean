import Tabletop.Proofs.Attribute.Application
import Tabletop.Proofs.Dice.Unsigned

/-!
# Negative values in directives

Adding and subtracting stop at zero.  So a directive writes a negative value only where it sets an
attribute to one: to a number with a minus before it, or to an expression that holds a minus.

## Main definitions

* `Operation.HasMinus` — the amount of an operation is a negative number or holds a minus.
* `Change.SetsNegative` — a change that set an attribute to such an amount.

## Main results

* `rollAmounts_hasMinus` — only such amounts are rolled to negative numbers.
* `carryOut_setsNegative` — **a negative value comes from a change that set it.**
* `applyText_setsNegative` — so does each negative value that a directive reports as stored.
-/

namespace Tabletop.Attribute

open Dice

/-- The amount is the negative number itself, or an expression that holds a minus. -/
def Operation.HasMinus (op : Operation) (n : Int) : Prop :=
  op.amount = .literal n ∨ ∃ e, op.amount = .expression e ∧ '-' ∈ e.toList

/-- A change that was stored and set its attribute to a number that came with a minus. -/
structure Change.SetsNegative (c : Change) (name : String) (n : Int) : Prop where
  stored : c.stored = true
  kind : c.operation.kind = .set
  name : c.operation.name = name
  amount : c.amount = n
  hasMinus : c.operation.HasMinus n

section Rolls

variable {source : Source}

theorem rollAmount_hasMinus (hsource : source.IsUsual) {op : Operation} {supply supply' : Supply}
    {r : Rolled} (h : rollAmount source op supply = (.ok r, supply')) (hneg : r.amount < 0) :
    r.operation.HasMinus r.amount := by
  rw [rollAmount_operation h]
  unfold rollAmount at h
  cases hamount : op.amount with
  | literal n =>
    simp only [hamount, Command.pure_apply] at h
    cases h
    exact Or.inl hamount
  | expression e =>
    simp only [hamount] at h
    obtain ⟨roll, between, hroll, hresult⟩ := Command.bind_eq_ok h
    cases hresult
    refine Or.inr ⟨e, hamount, ?_⟩
    by_contra hminus
    have htotal := Source.total_nonneg hsource hminus (Command.ofRoll_eq_ok hroll)
    exact absurd hneg (Int.not_lt.2 htotal)

/-- **Only an amount with a minus** is rolled to a negative number. -/
theorem rollAmounts_hasMinus (hsource : source.IsUsual) {ops : List Operation}
    {supply supply' : Supply} {rs : List Rolled}
    (h : rollAmounts source ops supply = (.ok rs, supply')) :
    ∀ r ∈ rs, r.amount < 0 → r.operation.HasMinus r.amount := by
  induction ops generalizing supply supply' rs with
  | nil =>
    cases h
    exact List.forall_mem_nil _
  | cons op ops ih =>
    obtain ⟨r, between, hfirst, hmore⟩ := Command.bind_eq_ok h
    obtain ⟨rs', between', hrest, hresult⟩ := Command.bind_eq_ok hmore
    cases hresult
    exact List.forall_mem_cons.2 ⟨rollAmount_hasMinus hsource hfirst, ih hrest⟩

end Rolls

/-- Adding and subtracting stop at zero. -/
theorem Kind.eq_set_of_result_neg {kind : Kind} {previous : Option Int} {amount : Int}
    (h : kind.result previous amount < 0) : kind = .set := by
  cases kind with
  | set => rfl
  | add => exact absurd h (Int.not_lt.2 (Int.le_max_left 0 _))
  | subtract => exact absurd h (Int.not_lt.2 (Int.le_max_left 0 _))

/-- **A negative value comes from a change that set it.** -/
theorem carryOut_setsNegative {card : String} {cap : Int} {rs : List Rolled} {store : CardStore}
    (hrolls : ∀ r ∈ rs, r.amount < 0 → r.operation.HasMinus r.amount) {c : Change}
    (hc : c ∈ (carryOut card cap rs store).1) (hstored : c.stored = true) (hneg : c.newValue < 0) :
    c.SetsNegative c.operation.name c.newValue := by
  obtain ⟨earlier, later, hsplit⟩ := List.append_of_mem hc
  have hresult := (carryOut_trueOf hsplit).newValue
  have hrolled : c.rolled ∈ rs := by
    have hmem := List.mem_map_of_mem (f := Change.rolled) hc
    rwa [carryOut_rolled] at hmem
  rw [hresult] at hneg
  have hkind := Kind.eq_set_of_result_neg hneg
  have hvalue : c.newValue = c.amount := by
    rw [hresult, hkind]
    rfl
  rw [hkind] at hneg
  exact ⟨hstored, hkind, rfl, hvalue.symm, hvalue ▸ hrolls c.rolled hrolled hneg⟩

/-- A change that a directive reports as stored has a negative value only if it set it. -/
theorem applyText_setsNegative {source : Source} (hsource : source.IsUsual) {aliases : AliasTable}
    {cap : Int} {card text : String} {game game' : Game} {report : Report}
    (h : applyText source aliases cap card text game = (.ok report, game')) :
    ∀ c ∈ report.changes, c.stored = true → c.newValue < 0 →
      c.SetsNegative c.operation.name c.newValue := by
  obtain ⟨rs, hrolls, rfl, -⟩ := applyText_eq_ok h
  exact fun c hc hstored hneg =>
    carryOut_setsNegative (rollAmounts_hasMinus hsource hrolls) hc hstored hneg

end Tabletop.Attribute
