import Tabletop.Proofs.Card.Writes

/-!
# Filling in a sheet twice

A sheet is a list of operations each of which sets an attribute to a number; the same attribute may
come more than once.  Filling it in on a card that has little room left may refuse some of the
operations.  Doing so a second time changes nothing: the same operations are refused, and the card
stays as the first time has left it.

An attribute is taken or refused as a whole.  Once it was written it is on the card and is taken
each time it comes again, and once it was refused the card is full and stays so.  So what a run has
stored can be told from the cards that it leaves: it is what they take.  The value of an attribute
that is taken is the last one on the sheet, so it does not depend on what was there before.

## Main definitions

* `lastAmount?` — the amount of the last operation on an attribute.

## Main results

* `stored_carryOut` — what a run has stored is what the card takes in the end.
* `get?_carryOut` — the values that a run of sets leaves.
* `carryOut_carryOut` — **a second run of the same sets changes nothing.**
* `applyTo_twice` — **a sheet may be filled in twice.**
-/

namespace Tabletop.Attribute

open CardStore Dice

/-! ### Runs -/

section Run

variable {card : String} {cap : Int}

/-- **A card that refuses an attribute** refuses it after a run as well. -/
theorem accepts_carryOut_of_refused {store : CardStore} {name : String}
    (h : store.accepts card name cap = false) (rs : List Rolled) :
    (carryOut card cap rs store).2.accepts card name cap = false := by
  induction rs generalizing store with
  | nil => exact h
  | cons r rs ih => exact ih (accepts_carryOutOne card cap r store h)

/-- **A card takes an attribute after a run** if it took a value for it in the run. -/
theorem accepts_carryOut_of_accepted {r : Rolled} {store : CardStore}
    (h : store.accepts card r.operation.name cap = true) (rs : List Rolled) :
    (carryOut card cap (r :: rs) store).2.accepts card r.operation.name cap = true := by
  have hwrites := carryOut_writes card cap (r :: rs) store
  have hwritable : store.readOnly = false := by
    rw [accepts, Bool.and_eq_true, Bool.not_eq_true'] at h
    exact h.1
  have hstored : (carryOutOne card cap r store).1.stored = true := by rw [stored_carryOutOne, h]
  have hthere : (r.operation.name, (carryOutOne card cap r store).1.newValue) ∈
      storedValues (carryOut card cap (r :: rs) store).1 := by
    rw [carryOut_cons, storedValues, List.filter_cons_of_pos hstored]
    exact List.mem_cons_self
  refine accepts_of_contains (hwrites.readOnly_eq.trans hwritable) ?_ cap
  exact (InsertionMap.contains_iff_mem_keys _ _).2 (hwrites.mem_keys hthere)

/-- **What a run stores** can be told from the cards that it leaves: it is what they take. -/
theorem stored_carryOut (rs : List Rolled) (store : CardStore) :
    (carryOut card cap rs store).1.map Change.stored =
      rs.map fun r => (carryOut card cap rs store).2.accepts card r.operation.name cap := by
  induction rs generalizing store with
  | nil => rfl
  | cons r rs ih =>
    have hfirst : (carryOut card cap (r :: rs) store).2.accepts card r.operation.name cap =
        store.accepts card r.operation.name cap := by
      rcases haccepts : store.accepts card r.operation.name cap with _ | _
      · exact accepts_carryOut_of_refused haccepts (r :: rs)
      · exact accepts_carryOut_of_accepted haccepts rs
    rw [List.map_cons, hfirst, ← stored_carryOutOne, carryOut_cons, List.map_cons, ih]

/-- The amount of the last operation on an attribute. -/
def lastAmount? (name : String) : List Rolled → Option Int
  | [] => none
  | r :: rs => (lastAmount? name rs).or (if r.operation.name = name then some r.amount else none)

/-- **A run of sets** leaves the last amount for each attribute that the card takes, and all others
as they were. -/
theorem get?_carryOut {rs : List Rolled} (hset : ∀ r ∈ rs, r.operation.kind = .set)
    (store : CardStore) (name : String) :
    (carryOut card cap rs store).2.get? card name =
      if (carryOut card cap rs store).2.accepts card name cap then
        (lastAmount? name rs).or (store.get? card name)
      else store.get? card name := by
  induction rs generalizing store with
  | nil => exact (ite_self _).symm
  | cons r rs ih =>
    rw [List.forall_mem_cons] at hset
    have hcards := carryOutOne_cards card cap r store
    rw [Change.redo, stored_carryOutOne] at hcards
    rw [carryOut_cons, ih hset.2, lastAmount?, Option.or_assoc]
    have hvalue : (carryOutOne card cap r store).1.newValue = r.amount := by
      show r.operation.kind.result _ r.amount = r.amount
      rw [hset.1, Kind.result]
    have hname : (carryOutOne card cap r store).1.operation.name = r.operation.name := rfl
    rcases haccepts : store.accepts card r.operation.name cap with _ | _
    · -- The attribute is refused, now and to the end of the run.
      rw [haccepts, if_neg Bool.false_ne_true] at hcards
      rw [hcards]
      by_cases hsame : r.operation.name = name
      · have hrefused := accepts_carryOut_of_refused haccepts rs
        rw [hsame] at hrefused
        rw [hrefused]
        rfl
      · rw [if_neg hsame, Option.none_or]
    · rw [haccepts, if_pos rfl, hname, hvalue] at hcards
      have hget : (carryOutOne card cap r store).2.get? card name =
          (if r.operation.name = name then some r.amount else none).or (store.get? card name) := by
        rw [hcards, get?_write]
        by_cases hsame : r.operation.name = name
        · rw [if_pos ⟨rfl, hsame⟩, if_pos hsame, Option.some_or]
        · rw [if_neg fun h => hsame h.2, if_neg hsame, Option.none_or]
      rw [hget]
      by_cases hsame : r.operation.name = name
      · have hfinal := accepts_carryOut_of_accepted haccepts rs
        rw [carryOut_cons, hsame] at hfinal
        rw [hfinal]
        rfl
      · rw [if_neg hsame, Option.none_or]

/-- **A second run of the same sets changes nothing.** -/
theorem carryOut_carryOut {rs : List Rolled} (hset : ∀ r ∈ rs, r.operation.kind = .set)
    (store : CardStore) :
    (carryOut card cap rs (carryOut card cap rs store).2).2 = (carryOut card cap rs store).2 := by
  refine (carryOut_writes card cap rs (carryOut card cap rs store).2).eq_of_get?_eq fun name => ?_
  rw [get?_carryOut hset]
  split
  · next haccepts =>
    -- What is taken after the second run was not refused after the first one.
    have hfirst : (carryOut card cap rs store).2.accepts card name cap = true := by
      rw [← Bool.not_eq_false]
      intro hrefused
      rw [accepts_carryOut_of_refused hrefused rs] at haccepts
      cases haccepts
    rw [get?_carryOut hset, if_pos hfirst]
    rcases lastAmount? name rs with _ | n
    · rfl
    · rfl
  · rfl

/-- The second run stores what the first one has stored. -/
theorem stored_carryOut_carryOut {rs : List Rolled} (hset : ∀ r ∈ rs, r.operation.kind = .set)
    (store : CardStore) :
    (carryOut card cap rs (carryOut card cap rs store).2).1.map Change.stored =
      (carryOut card cap rs store).1.map Change.stored := by
  rw [stored_carryOut, stored_carryOut, carryOut_carryOut hset]

end Run

/-! ### Sheets -/

/-- Numbers are not rolled, so they take no dice. -/
theorem rollAmounts_literal (source : Source) {ops : List Operation}
    (h : ∀ op ∈ ops, ∃ n, op.amount = .literal n) (supply : Supply) :
    ∃ rs, rollAmounts source ops supply = (.ok rs, supply) := by
  induction ops with
  | nil => exact ⟨[], rfl⟩
  | cons op ops ih =>
    rw [List.forall_mem_cons] at h
    obtain ⟨⟨n, hn⟩, hrest⟩ := h
    obtain ⟨rs, hrs⟩ := ih hrest
    have hfirst : rollAmount source op supply = (.ok ⟨op, n, Text.intText n⟩, supply) := by
      rw [rollAmount, hn]
      rfl
    refine ⟨⟨op, n, Text.intText n⟩ :: rs, ?_⟩
    simp only [rollAmounts, Command.bind_apply, hfirst, hrs, Command.pure_apply]

/-- There is a change for each operation of a run, in order. -/
theorem operation_carryOut (card : String) (cap : Int) (rs : List Rolled) (store : CardStore) :
    (carryOut card cap rs store).1.map Change.operation = rs.map Rolled.operation := by
  have hrolled : (carryOut card cap rs store).1.map Change.rolled = rs := carryOut_rolled rs store
  have hoperations := congrArg (List.map Rolled.operation) hrolled
  rw [List.map_map] at hoperations
  exact hoperations

/-- **A sheet may be filled in twice.**  Operations that all set attributes to numbers are never
refused as a whole and take no dice.  Applied a second time to what the first time has left they
change nothing: all cards are the same, with the same attributes in the same order, and so are the
stored turn orders and the supply of dice.  Both reports are about all the operations in order, and
the same ones are stored, also if an attribute comes more than once and the card fills up on the
way. -/
theorem applyTo_twice (source : Source) (cap : Int) (card : String) {ops : List Operation}
    (hset : ∀ op ∈ ops, op.kind = .set) (hliteral : ∀ op ∈ ops, ∃ n, op.amount = .literal n)
    (game : Game) :
    ∃ report report' game',
      applyTo source cap card ops game = (.ok report, game') ∧
        applyTo source cap card ops game' = (.ok report', game') ∧
        game'.supply = game.supply ∧
        report.changes.map Change.operation = ops ∧
        report'.changes.map Change.operation = ops ∧
        report'.changes.map Change.stored = report.changes.map Change.stored := by
  obtain ⟨rs, hrolls⟩ := rollAmounts_literal source hliteral game.supply
  have hoperations := rollAmounts_operation hrolls
  have hsets : ∀ r ∈ rs, r.operation.kind = .set := by
    intro r hr
    apply hset
    rw [← hoperations]
    exact List.mem_map_of_mem hr
  let cards := (carryOut card cap rs game.cards).2
  have hfirst := applyTo_apply source cap card ops game
  have hsecond := applyTo_apply source cap card ops { game with cards := cards }
  simp only [hrolls] at hfirst hsecond
  have hcards : (carryOut card cap rs cards).2 = cards := carryOut_carryOut hsets game.cards
  rw [hcards] at hsecond
  refine ⟨_, _, _, hfirst, hsecond, rfl, ?_, ?_, stored_carryOut_carryOut hsets game.cards⟩
  · rw [operation_carryOut, hoperations]
  · rw [operation_carryOut, hoperations]

/-- A card for two attributes takes the two that come first, one of them with the value that comes
later, and refuses the third both times. -/
theorem applyTo_twice_full_card :
    ∃ report report' game',
      applyTo .evaluator 2 "c"
          [⟨"hp", .set, .literal 5⟩, ⟨"mp", .set, .literal 6⟩, ⟨"hp", .set, .literal 7⟩,
            ⟨"luck", .set, .literal 1⟩] ⟨.empty, .empty, .ofList []⟩ = (.ok report, game') ∧
        applyTo .evaluator 2 "c"
          [⟨"hp", .set, .literal 5⟩, ⟨"mp", .set, .literal 6⟩, ⟨"hp", .set, .literal 7⟩,
            ⟨"luck", .set, .literal 1⟩] game' = (.ok report', game') ∧
        (game'.cards.attributes "c").toList = [("hp", 7), ("mp", 6)] ∧
        report'.changes.map Change.stored = [true, true, true, false] := by
  obtain ⟨report, report', game', hfirst, hsecond, -, -, -, hstored⟩ :=
    @applyTo_twice .evaluator 2 "c"
      [⟨"hp", .set, .literal 5⟩, ⟨"mp", .set, .literal 6⟩, ⟨"hp", .set, .literal 7⟩,
        ⟨"luck", .set, .literal 1⟩]
      (by decide) (by simp) ⟨.empty, .empty, .ofList []⟩
  refine ⟨report, report', game', hfirst, hsecond, ?_, ?_⟩
  · cases hfirst
    rfl
  · rw [hstored]
    cases hfirst
    rfl

end Tabletop.Attribute
