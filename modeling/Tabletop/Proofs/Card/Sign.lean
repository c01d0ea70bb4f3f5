import Tabletop.Proofs.Attribute.Sign
import Tabletop.Proofs.Card.Session
import Tabletop.Proofs.Check.Sign

/-!
# Negative values on cards

An attribute may be set to a negative number by a directive such as `hp -5`.  Nothing else makes a
value negative: neither adding and subtracting nor the loss of sanity nor the growth of a skill.  So
in a session of directives and checks each negative value is one that a directive reported to have
set, and a check refuses a negative value on a card only for such a directive.

## Main definitions

* `ReportedNegative` — an answer reports that an attribute was set to a negative number.
* `refusals` — why commands were refused.

## Main results

* `eq_directive_of_negative`, `onCard_negative` — the negative values that a command writes.
* `onCards_negative` — the negative values after a run of commands.
* `reported_of_negative` — **each negative value was set by a directive**, and so was each that a
  check refuses.
-/

namespace Tabletop

open Attribute Check CardStore

/-- An answer to one of some commands reports that an attribute of a card was set to a number that
came with a minus. -/
def ReportedNegative (answers : List (String × Except Error CardAnswer)) (card name : String)
    (n : Int) : Prop :=
  ∃ named r, (named, .ok (.report r)) ∈ answers ∧ r.card = card ∧
    ∃ c ∈ r.changes, c.SetsNegative name n

theorem ReportedNegative.cons {answers : List (String × Except Error CardAnswer)}
    {card name : String} {n : Int} (h : ReportedNegative answers card name n)
    (answer : String × Except Error CardAnswer) :
    ReportedNegative (answer :: answers) card name n := by
  obtain ⟨named, r, hmem, hreport⟩ := h
  exact ⟨named, r, List.mem_cons_of_mem answer hmem, hreport⟩

/-! ### One command -/

section Command

variable {s : Session} {game : Game} {card : String} {action : CardAction}

/-- The request of a check has no formula with a minus. -/
theorem unsigned_of_check? {variety : Variety} {request : Request}
    (h : action.check? card = some (variety, .ok request)) :
    ∀ f ∈ request.purpose.formula?, '-' ∉ f.success.toList := by
  cases action with
  | sanityCheck words => exact sanityRequest_unsigned (Prod.mk.inj (Option.some.inj h)).2
  | growthCheck words => exact growthRequest_unsigned (Prod.mk.inj (Option.some.inj h)).2
  | set | get | directive | list | pool => cases h

/-- **A check writes no negative value.** -/
theorem onCard_check_nonneg (hsource : s.source.IsUsual) {variety : Variety}
    {read : Except Error Request} (h : action.check? card = some (variety, read)) :
    ∀ w ∈ written action (s.onCard card action game).1, 0 ≤ w.2 := by
  intro w hw
  rcases onCard_check_cases s game h with ⟨hwritten, -⟩ | ⟨request, o, rfl, hrun, hwritten⟩
  · rw [hwritten] at hw
    cases hw
  · rw [hwritten, Outcome.written] at hw
    split at hw
    · rw [List.mem_singleton.1 hw]
      exact newValue_nonneg hsource (unsigned_of_check? h) hrun
    · cases hw

/-- **A directive answers with a report**, in which a change that was stored has a negative value
only if it set it. -/
theorem onCard_directive_report (hsource : s.source.IsUsual) {text : String} {answer : CardAnswer}
    (hanswer : (s.onCard card (.directive text) game).1 = .ok answer) :
    ∃ r, answer = .report r ∧ r.card = CardAction.target card (.directive text) ∧
      ∀ c ∈ r.changes, c.stored = true → c.newValue < 0 →
        c.SetsNegative c.operation.name c.newValue := by
  rw [Session.onCard, Play.map_apply] at hanswer
  rcases happly : applyText s.source .builtIn s.cap card text game with ⟨e | report, game'⟩
  · rw [happly] at hanswer
    cases hanswer
  · rw [happly] at hanswer
    have hcard : report.card = CardAction.target card (.directive text) := by
      obtain ⟨rs, -, rfl, -⟩ := applyText_eq_ok happly
      rfl
    exact ⟨report, (Except.ok.inj hanswer).symm, hcard, applyText_setsNegative hsource happly⟩

/-- **A directive that writes a negative value** reports that it set the attribute to it. -/
theorem onCard_directive_negative (hsource : s.source.IsUsual) {text : String} :
    ∀ w ∈ written (.directive text) (s.onCard card (.directive text) game).1, w.2 < 0 →
      ∃ r, (s.onCard card (.directive text) game).1 = .ok (.report r) ∧
        r.card = CardAction.target card (.directive text) ∧
        ∃ c ∈ r.changes, c.SetsNegative w.1 w.2 := by
  intro w hw hneg
  rcases hanswer : (s.onCard card (.directive text) game).1 with e | answer
  · rw [hanswer] at hw
    cases hw
  · rw [hanswer] at hw
    obtain ⟨r, rfl, hcard, hchanges⟩ := onCard_directive_report hsource hanswer
    obtain ⟨c, hc, rfl⟩ := List.mem_map.1 hw
    obtain ⟨hmem, hstored⟩ := List.mem_filter.1 hc
    exact ⟨r, rfl, hcard, c, hmem, hchanges c hmem hstored hneg⟩

/-- **Only a directive writes a negative value**, unless a command just writes one. -/
theorem eq_directive_of_negative (hsource : s.source.IsUsual)
    (hset : ∀ name value, action ≠ .set name value) :
    ∀ w ∈ written action (s.onCard card action game).1, w.2 < 0 →
      ∃ text, action = .directive text := by
  intro w hw hneg
  cases action with
  | set name value => exact absurd rfl (hset name value)
  | get name => cases hw
  | list => cases hw
  | pool text =>
    rw [(onCard_pool s game card text).1] at hw
    cases hw
  | directive text => exact ⟨text, rfl⟩
  | sanityCheck words =>
    exact absurd hneg (Int.not_lt.2 (onCard_check_nonneg hsource rfl w hw))
  | growthCheck words =>
    exact absurd hneg (Int.not_lt.2 (onCard_check_nonneg hsource rfl w hw))

/-- **The negative values that a command writes**, unless it just writes one, are those that it
reports a directive to have set. -/
theorem onCard_negative (hsource : s.source.IsUsual)
    (hset : ∀ name value, action ≠ .set name value) :
    ∀ w ∈ written action (s.onCard card action game).1, w.2 < 0 →
      ∃ r, (s.onCard card action game).1 = .ok (.report r) ∧ r.card = action.target card ∧
        ∃ c ∈ r.changes, c.SetsNegative w.1 w.2 := by
  intro w hw hneg
  obtain ⟨text, rfl⟩ := eq_directive_of_negative hsource hset w hw hneg
  exact onCard_directive_negative hsource w hw hneg

end Command

/-! ### Runs of commands -/

section Run

variable {s : Session} (hsource : s.source.IsUsual)
include hsource

/-- **A negative value after a run of commands** was there before, or a directive reports that it
set it. -/
theorem onCards_negative {commands : List (String × CardAction)}
    (hset : ∀ card name value, (card, CardAction.set name value) ∉ commands) {game : Game}
    {card name : String} {n : Int} (hneg : n < 0)
    (hvalue : (s.onCards commands game).2.cards.get? card name = some n) :
    game.cards.get? card name = some n ∨
      ReportedNegative (s.onCards commands game).1 card name n := by
  induction commands generalizing game with
  | nil => exact Or.inl hvalue
  | cons command commands ih =>
    obtain ⟨named, action⟩ := command
    have hrest : ∀ card name value, (card, CardAction.set name value) ∉ commands :=
      fun card name value hmem => hset card name value (List.mem_cons_of_mem _ hmem)
    rw [onCards_cons] at hvalue ⊢
    rcases ih hrest hvalue with hnext | hlater
    · by_cases hcard : card = action.target named
      · subst hcard
        rcases (onCard_writes s game named action).get?_eq_some hnext with hold | hnew
        · exact Or.inl hold
        · have hplain : ∀ name value, action ≠ .set name value := by
            rintro name value rfl
            exact hset named name value List.mem_cons_self
          obtain ⟨r, hanswer, hreport⟩ := onCard_negative hsource hplain _ hnew hneg
          refine Or.inr ⟨named, r, ?_, hreport⟩
          rw [← hanswer]
          exact List.mem_cons_self
      · left
        rwa [CardStore.get?, onCard_attributes_of_ne s game named action hcard] at hnext
    · exact Or.inr (hlater.cons _)

/-- **Each negative value was set by a directive.**  In a session of directives and checks that
starts without cards, a value below zero on a card is one that a directive reports to have set, and
its amount came with a minus.  Whatever command comes next writes what its answer tells; only a
directive writes a negative value, and only where it sets an attribute, not where it adds or
subtracts.  A check of an attribute on a card is refused for its value only if the value is one that
was set, or zero where sanity is at stake. -/
theorem reported_of_negative (orders : InsertionMap String String) (supply : Dice.Supply)
    (commands : List (String × CardAction))
    (hset : ∀ card name value, (card, CardAction.set name value) ∉ commands) :
    (∀ card name n, (s.cardsAfter orders supply commands).get? card name = some n → n < 0 →
        ReportedNegative (s.onCards commands ⟨.empty, orders, supply⟩).1 card name n) ∧
      (∀ card action answer, (∀ name value, action ≠ .set name value) →
        (s.onCard card action (s.onCards commands ⟨.empty, orders, supply⟩).2).1 = answer →
          CardStore.Writes (action.target card) s.cap (written action answer)
              (s.cardsAfter orders supply commands)
              (s.cardsAfter orders supply (commands ++ [(card, action)])) ∧
            (∀ w ∈ written action answer, w.2 < 0 → ∃ text, action = .directive text) ∧
            ∀ text r, action = .directive text → answer = .ok (.report r) →
              ∀ c ∈ r.changes, c.stored = true → c.newValue < 0 →
                c.SetsNegative c.operation.name c.newValue) ∧
      ∀ card action variety request shown,
        action.check? card = some (variety, .ok request) → request.explicit = none →
        (s.onCard card action (s.onCards commands ⟨.empty, orders, supply⟩).2).1 =
          .error (.range (.reference shown)) →
        ∃ n,
          (s.cardsAfter orders supply commands).get? card
              (AliasTable.builtIn.normalize request.name) = some n ∧
            shown = Text.intText n ∧
            (n < 0 ∧ ReportedNegative (s.onCards commands ⟨.empty, orders, supply⟩).1 card
                (AliasTable.builtIn.normalize request.name) n ∨
              n = 0 ∧ variety = .sanity) := by
  have hvalues : ∀ card name n, (s.cardsAfter orders supply commands).get? card name = some n →
      n < 0 → ReportedNegative (s.onCards commands ⟨.empty, orders, supply⟩).1 card name n := by
    intro card name n hvalue hneg
    rcases onCards_negative hsource hset hneg hvalue with hbefore | hreported
    · cases hbefore
    · exact hreported
  refine ⟨hvalues, ?_, ?_⟩
  · rintro card action answer hplain rfl
    rw [cardsAfter_append]
    refine ⟨onCard_writes s _ card action, eq_directive_of_negative hsource hplain, ?_⟩
    rintro text r rfl hanswer
    obtain ⟨r', hreport, -, hchanges⟩ := onCard_directive_report hsource hanswer
    obtain rfl := CardAnswer.report.inj hreport
    exact hchanges
  · intro card action variety request shown hcheck hexplicit hrefused
    obtain ⟨rfl, -⟩ := request_of_check? hcheck
    rw [onCard_of_check? s hcheck, answerCheck_ok] at hrefused
    rcases hrun : run s.checkSetting variety request
        (s.onCards commands ⟨.empty, orders, supply⟩).2 with ⟨e | o, game'⟩
    · rw [hrun] at hrefused
      obtain rfl := Except.error.inj hrefused
      obtain ⟨n, hvalue, hshown, hbad⟩ := run_refused_reference hexplicit hrun
      refine ⟨n, hvalue, hshown, ?_⟩
      rcases hbad with hneg | hzero
      · exact Or.inl ⟨hneg, hvalues _ _ n hvalue hneg⟩
      · exact Or.inr hzero
    · rw [hrun] at hrefused
      cases hrefused

end Run

/-- Magic points are set, and then set below zero. -/
theorem reported_of_negative_magic :
    ReportedNegative
      (Session.onCards ⟨.evaluator, .rule0, 100⟩
        [("c", .directive "mp 10"), ("c", .directive "mp -2")] ⟨.empty, .empty, .ofList [1]⟩).1
      "c" "魔法" (-2) := by
  have hset : ∀ card name value, (card, CardAction.set name value) ∉
      [("c", .directive "mp 10"), ("c", .directive "mp -2")] := by
    intro card name value hmem
    simp at hmem
  have hvalue : (Session.cardsAfter ⟨.evaluator, .rule0, 100⟩ .empty (.ofList [1])
      [("c", .directive "mp 10"), ("c", .directive "mp -2")]).get? "c" "魔法" = some (-2) := by
    decide +kernel
  exact (reported_of_negative (Or.inl rfl) .empty (.ofList [1]) _ hset).1 _ _ _ hvalue (by decide)

/-- Why commands were refused, one after another. -/
def refusals (answers : List (String × Except Error CardAnswer)) : List Error :=
  answers.filterMap fun a =>
    match a.2 with
    | .ok _ => none
    | .error e => some e

/-- **A directive may set an attribute below zero**, and then a growth check of it is refused. -/
theorem negative_hit_points :
    (Session.cardsAfter ⟨.evaluator, .rule0, 100⟩ .empty (.ofList [1])
        [("c", .directive "hp -5")]).get? "c" "生命" = some (-5) ∧
      refusals (Session.onCards ⟨.evaluator, .rule0, 100⟩
        [("c", .directive "hp -5"), ("c", .growthCheck ["hp"])]
        ⟨.empty, .empty, .ofList [1]⟩).1 = [.range (.reference "-5")] := by
  decide +kernel

end Tabletop
