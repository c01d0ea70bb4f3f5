import Tabletop.Attribute.Apply

/-!
# The report on a directive is a faithful log

A directive rolls all its amounts before it writes anything, so one that is refused leaves all cards
as they were.  One that is not refused gives a report from which its work can be done again: each
change says what it found, after the changes before it, and what was to be written, and writing the
values of the stored changes one after another gives the cards that the directive left.

A card refuses a value only for an attribute that it does not have, and only when it is full.  From
then on it takes no new attribute, so the same attribute is refused each time it comes again.

## Main definitions

* `replay` — the cards after the stored changes of a list.
* `Change.TrueOf` — what a change says is true of the cards that it was made on.

## Main results

* `accepts_carryOutOne` — a card that refuses an attribute still refuses it after a value was
  written.
* `carryOut_cards`, `carryOut_trueOf`, `carryOut_refused` — the log of a run.
* `applyText_eq_error`, `applyText_eq_ok` — what a directive does when it is refused, and when not.
* `applyText_faithful` — **a directive does what its report says, or nothing.**
-/

namespace Tabletop.Attribute

open Dice

/-! ### One change -/

/-- The operation of a change, with its amount. -/
def Change.rolled (c : Change) : Rolled := ⟨c.operation, c.amount, c.detail⟩

/-- The cards after a change: its value is written if it was stored. -/
def Change.redo (card : String) (store : CardStore) (c : Change) : CardStore :=
  if c.stored then store.write card c.operation.name c.newValue else store

/-- The cards after the changes of a list, one after another. -/
def replay (card : String) (changes : List Change) (store : CardStore) : CardStore :=
  changes.foldl (Change.redo card) store

@[simp] theorem replay_nil (card : String) (store : CardStore) : replay card [] store = store := rfl

@[simp] theorem replay_cons (card : String) (c : Change) (changes : List Change)
    (store : CardStore) :
    replay card (c :: changes) store = replay card changes (c.redo card store) := rfl

/-- What a change says is true of the cards that it was made on. -/
structure Change.TrueOf (card : String) (cap : Int) (store : CardStore) (c : Change) : Prop where
  /-- It found what was on the card. -/
  previous : c.previous = store.get? card c.operation.name
  /-- Its value is the result of the operation. -/
  newValue : c.newValue = c.operation.kind.result c.previous c.amount
  /-- It was stored if the card took the value. -/
  stored : c.stored = store.accepts card c.operation.name cap

section One

variable (card : String) (cap : Int) (r : Rolled) (store : CardStore)

/-- Whether a value is stored is up to the card. -/
theorem stored_carryOutOne :
    (carryOutOne card cap r store).1.stored = store.accepts card r.operation.name cap := by
  rcases haccepts : store.accepts card r.operation.name cap with _ | _
  · simp only [carryOutOne, CardStore.set_of_not_accepts haccepts]
  · simp only [carryOutOne, CardStore.set_of_accepts haccepts]

/-- **What a change says is true.** -/
theorem carryOutOne_trueOf : (carryOutOne card cap r store).1.TrueOf card cap store where
  previous := rfl
  newValue := rfl
  stored := stored_carryOutOne card cap r store

/-- A change can be done again. -/
theorem carryOutOne_cards :
    (carryOutOne card cap r store).2 = (carryOutOne card cap r store).1.redo card store := by
  rw [Change.redo, stored_carryOutOne]
  rcases haccepts : store.accepts card r.operation.name cap with _ | _
  · rw [carryOutOne, CardStore.set_of_not_accepts haccepts]
    rfl
  · rw [carryOutOne, CardStore.set_of_accepts haccepts]
    rfl

/-- **A card that refuses an attribute** still refuses it after a value was written. -/
theorem accepts_carryOutOne {name : String} (h : store.accepts card name cap = false) :
    (carryOutOne card cap r store).2.accepts card name cap = false := by
  rw [carryOutOne_cards, Change.redo, stored_carryOutOne]
  rcases haccepts : store.accepts card r.operation.name cap with _ | _
  · exact h
  · exact CardStore.accepts_write h haccepts _

end One

/-! ### A run of changes -/

section Run

variable {card : String} {cap : Int}

/-- There is one change for each amount, in order. -/
theorem carryOut_rolled (rs : List Rolled) (store : CardStore) :
    (carryOut card cap rs store).1.map Change.rolled = rs := by
  induction rs generalizing store with
  | nil => rfl
  | cons r rs ih =>
    rw [carryOut_cons, List.map_cons, ih]
    rfl

/-- **The cards after a run** are those after its changes are done again. -/
theorem carryOut_cards (rs : List Rolled) (store : CardStore) :
    (carryOut card cap rs store).2 = replay card (carryOut card cap rs store).1 store := by
  induction rs generalizing store with
  | nil => rfl
  | cons r rs ih => rw [carryOut_cons, replay_cons, ih, ← carryOutOne_cards]

/-- **What each change of a run says** is true of the cards after the changes before it. -/
theorem carryOut_trueOf {rs : List Rolled} {store : CardStore} {earlier later : List Change}
    {c : Change} (h : (carryOut card cap rs store).1 = earlier ++ c :: later) :
    c.TrueOf card cap (replay card earlier store) := by
  induction rs generalizing store earlier with
  | nil => cases earlier <;> cases h
  | cons r rs ih =>
    rw [carryOut_cons] at h
    cases earlier with
    | nil =>
      obtain ⟨rfl, -⟩ := List.cons.inj h
      exact carryOutOne_trueOf card cap r store
    | cons d earlier =>
      obtain ⟨rfl, hrest⟩ := List.cons.inj h
      rw [replay_cons, ← carryOutOne_cards]
      exact ih hrest

/-- A card that refuses an attribute at the start of a run refuses it all along. -/
theorem stored_eq_false_of_mem {rs : List Rolled} {store : CardStore} {name : String}
    (h : store.accepts card name cap = false) {c : Change}
    (hmem : c ∈ (carryOut card cap rs store).1) (hname : c.operation.name = name) :
    c.stored = false := by
  induction rs generalizing store with
  | nil => cases hmem
  | cons r rs ih =>
    rw [carryOut_cons] at hmem
    rcases List.mem_cons.1 hmem with rfl | hlater
    · rw [stored_carryOutOne, show r.operation.name = name from hname]
      exact h
    · exact ih (accepts_carryOutOne card cap r store h) hlater

/-- **Once an attribute was refused** it is refused in the rest of the run. -/
theorem carryOut_refused {rs : List Rolled} {store : CardStore} {earlier later : List Change}
    {c c' : Change} (h : (carryOut card cap rs store).1 = earlier ++ c :: later)
    (hrefused : c.stored = false) (hlater : c' ∈ later)
    (hname : c'.operation.name = c.operation.name) : c'.stored = false := by
  induction rs generalizing store earlier with
  | nil => cases earlier <;> cases h
  | cons r rs ih =>
    rw [carryOut_cons] at h
    cases earlier with
    | nil =>
      obtain ⟨rfl, rfl⟩ := List.cons.inj h
      rw [stored_carryOutOne] at hrefused
      exact stored_eq_false_of_mem (accepts_carryOutOne card cap r store hrefused) hlater hname
    | cons d earlier => exact ih (List.cons.inj h).2

end Run

/-! ### Directives -/

section Directive

variable {source : Source}

theorem rollAmount_operation {op : Operation} {supply supply' : Supply} {r : Rolled}
    (h : rollAmount source op supply = (.ok r, supply')) : r.operation = op := by
  unfold rollAmount at h
  cases hamount : op.amount with
  | literal n =>
    simp only [hamount, Command.pure_apply] at h
    cases h
    rfl
  | expression e =>
    simp only [hamount] at h
    obtain ⟨roll, between, -, hresult⟩ := Command.bind_eq_ok h
    cases hresult
    rfl

/-- There is one amount for each operation, in order. -/
theorem rollAmounts_operation {ops : List Operation} {supply supply' : Supply} {rs : List Rolled}
    (h : rollAmounts source ops supply = (.ok rs, supply')) : rs.map Rolled.operation = ops := by
  induction ops generalizing supply supply' rs with
  | nil =>
    cases h
    rfl
  | cons op ops ih =>
    obtain ⟨r, between, hfirst, hmore⟩ := Command.bind_eq_ok h
    obtain ⟨rs', between', hrest, hresult⟩ := Command.bind_eq_ok hmore
    cases hresult
    rw [List.map_cons, rollAmount_operation hfirst, ih hrest]

/-- Operations are applied in two stages: the first only takes dice, and the second cannot fail. -/
theorem applyTo_apply (source : Source) (cap : Int) (card : String) (ops : List Operation)
    (game : Game) :
    applyTo source cap card ops game =
      match rollAmounts source ops game.supply with
      | (.error e, supply) => (.error e, { game with supply := supply })
      | (.ok rs, supply) =>
        (.ok ⟨card, (carryOut card cap rs game.cards).1⟩,
          { game with supply := supply, cards := (carryOut card cap rs game.cards).2 }) := by
  rw [applyTo, Play.bind_apply, Play.ofCommand_apply]
  rcases rollAmounts source ops game.supply with ⟨e | rs, supply⟩
  · rfl
  · rfl

variable {aliases : AliasTable} {cap : Int} {card text : String} {game game' : Game}

/-- **A directive that is refused changes no card.** -/
theorem applyText_eq_error {e : Error}
    (h : applyText source aliases cap card text game = (.error e, game')) :
    game'.cards = game.cards := by
  unfold applyText at h
  split at h
  · cases h
    rfl
  rw [applyTo_apply] at h
  rcases hrolls : rollAmounts source (readDirective aliases text).operations game.supply with
    ⟨e' | rs, supply⟩
  · rw [hrolls] at h
    cases h
    rfl
  · rw [hrolls] at h
    cases h

/-- **A directive that is not refused** writes the amounts that were rolled for its operations. -/
theorem applyText_eq_ok {report : Report}
    (h : applyText source aliases cap card text game = (.ok report, game')) :
    let directive := readDirective aliases text
    ∃ rs, rollAmounts source directive.operations game.supply = (.ok rs, game'.supply) ∧
      report = ⟨directive.card.getD card,
        (carryOut (directive.card.getD card) cap rs game.cards).1⟩ ∧
      game'.cards = (carryOut (directive.card.getD card) cap rs game.cards).2 := by
  unfold applyText at h
  split at h
  · cases h
  rw [applyTo_apply] at h
  rcases hrolls : rollAmounts source (readDirective aliases text).operations game.supply with
    ⟨e' | rs, supply⟩
  · rw [hrolls] at h
    cases h
  · rw [hrolls] at h
    cases h
    exact ⟨rs, hrolls, rfl, rfl⟩

/-- **A directive does what its report says, or nothing.**  A directive that is refused changes no
card.  The report on one that is not refused is about one card, the one that the text names or else
the given one, and has one change for each operation of the text, in order; the amounts are those
that were rolled before anything was written.

Each change says what the changes before it had left, and its value is the amount, or what adding or
subtracting it gives but not less than zero.  The cards are those on which the values of the stored
changes were written one after another.  A change is refused if its attribute is not there and the
card is full (or if the store is read-only), and then so is each later change of that attribute. -/
theorem applyText_faithful (source : Source) (aliases : AliasTable) (cap : Int)
    (card text : String) (game : Game) :
    match applyText source aliases cap card text game with
    | (.error _, game') => game'.cards = game.cards
    | (.ok report, game') =>
      let directive := readDirective aliases text
      report.card = directive.card.getD card ∧
        report.changes.map Change.operation = directive.operations ∧
        rollAmounts source directive.operations game.supply =
          (.ok (report.changes.map Change.rolled), game'.supply) ∧
        game'.cards = replay report.card report.changes game.cards ∧
        ∀ earlier c later, report.changes = earlier ++ c :: later →
          let before := replay report.card earlier game.cards
          c.previous = before.get? report.card c.operation.name ∧
            c.newValue =
              (match c.operation.kind with
              | .set => c.amount
              | .add => max 0 (c.previous.getD 0 + c.amount)
              | .subtract => max 0 (c.previous.getD 0 - c.amount)) ∧
            (c.stored = false ↔
              before.readOnly = true ∨
                (c.previous = none ∧ cap ≤ ((before.attributes report.card).size : Int))) ∧
            (c.stored = false →
              ∀ c' ∈ later, c'.operation.name = c.operation.name → c'.stored = false) := by
  rcases hrun : applyText source aliases cap card text game with ⟨e | report, game'⟩
  · exact applyText_eq_error hrun
  obtain ⟨rs, hrolls, rfl, hcards⟩ := applyText_eq_ok hrun
  have hrolled : (carryOut ((readDirective aliases text).card.getD card) cap rs
      game.cards).1.map Change.rolled = rs := carryOut_rolled rs game.cards
  refine ⟨rfl, ?_, ?_, hcards.trans (carryOut_cards rs game.cards), ?_⟩
  · have hoperations := rollAmounts_operation hrolls
    rw [← hrolled, List.map_map] at hoperations
    exact hoperations
  · show _ = (Except.ok ((carryOut _ cap rs game.cards).1.map Change.rolled), game'.supply)
    rw [hrolled, hrolls]
  intro earlier c later hsplit
  have htrue := carryOut_trueOf hsplit
  refine ⟨htrue.previous, htrue.newValue, ?_, ?_⟩
  · rw [htrue.stored, CardStore.accepts_eq_false_iff, ← htrue.previous]
  · intro hrefused c' hlater hname
    exact carryOut_refused hsplit hrefused hlater hname

end Directive

end Tabletop.Attribute
