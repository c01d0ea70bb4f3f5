import Tabletop.Proofs.Check.Commitment
import Tabletop.Proofs.Dice.Monotone

/-!
# What a fumble costs

A fumble in a sanity check costs the most that the failure half of its cost can be.  The halves of
a cost hold no multiplication and no division, so the largest total that is found is indeed the
largest that can be rolled, and no failure with the same cost loses more.  The fumble itself rolls
nothing: the only die of the check is the hundred-sided one.

The search for the largest total says by the number minus one that there is none.  A cost that can
be rolled has a largest total, and a fumble is refused all the same if that total is minus one.

## Main results

* `Cost.parse_eq_ok` — what the halves of a cost are made of.
* `run_sanity_eq_ok` — a sanity check that is not refused, stage by stage.
* `isGreatest_of_fumble` — **a fumble costs the worst case**, and takes one die.
* `fumble_accepts` — **a fumble does not refuse a cost that can be rolled**, except for that number.
-/

namespace Tabletop.Check

open Dice Text

/-! ### Costs -/

theorem readLoss_eq_ok {text loss : String} (h : readLoss text = .ok loss) :
    ∀ c ∈ loss.toList, isLossChar c = true := by
  unfold readLoss at h
  simp only at h
  split at h
  · next hloss =>
    obtain rfl := Except.ok.inj h
    rw [Bool.and_eq_true, List.all_eq_true] at hloss
    rw [String.toList_ofList]
    exact hloss.2
  · cases h

/-- **Both halves of a cost are made of digits, dice letters and signs.** -/
theorem Cost.parse_eq_ok {text : Option String} {cost : Cost} (h : Cost.parse text = .ok cost) :
    (∀ c ∈ cost.success.toList, isLossChar c = true) ∧
      ∀ c ∈ cost.failure.toList, isLossChar c = true := by
  unfold Cost.parse at h
  split at h
  · next success failure hfields =>
    rcases hsuccess : readLoss (String.ofList success) with e | loss
    · rw [hsuccess] at h
      cases h
    rcases hfailure : readLoss (String.ofList failure) with e | loss'
    · rw [hsuccess, hfailure] at h
      cases h
    · rw [hsuccess, hfailure] at h
      obtain rfl := Except.ok.inj h
      exact ⟨readLoss_eq_ok hsuccess, readLoss_eq_ok hfailure⟩
  · cases h

theorem isLossChar_symbol (s : Scale) : isLossChar s.symbol = false := by
  cases s with
  | times => decide
  | divide => decide

/-- A loss holds no multiplication and no division. -/
theorem symbol_notMem_of_loss {loss : String} (h : ∀ c ∈ loss.toList, isLossChar c = true)
    (s : Scale) : s.symbol ∉ loss.toList := by
  intro hs
  have hchar := h _ hs
  rw [isLossChar_symbol] at hchar
  cases hchar

/-! ### The dice of a sanity check -/

section Dice

variable {source : Source} {supply supply' : Supply} {magnitude : Int} {detail : String}

/-- A fumble costs the largest loss and takes no dice for it. -/
theorem sanityLoss_criticalFail {cost : Cost}
    (h : sanityLoss source cost .criticalFail supply = (.ok (magnitude, detail), supply')) :
    source.largest cost.failure 100 = magnitude ∧ magnitude ≠ -1 ∧ supply' = supply := by
  simp only [sanityLoss] at h
  by_cases hworst : source.largest cost.failure 100 = -1
  · rw [if_pos hworst] at h
    cases h
  · rw [if_neg hworst] at h
    cases h
    exact ⟨rfl, hworst, rfl⟩

/-- **A sanity check that is not refused** has rolled the hundred-sided die, and then the loss that
the cost has for the level. -/
theorem run_sanity_eq_ok {setting : Setting} {request : Request} {game game' : Game} {o : Outcome}
    (h : run setting .sanity request game = (.ok o, game')) :
    ∃ cost primary between, request.purpose.cost? = some cost ∧
      setting.source.roll "1d100" 100 game.supply = (.ok primary, between) ∧
      sanityLoss setting.source cost o.level between =
        (.ok (o.magnitude, o.magnitudeDetail), game'.supply) := by
  obtain ⟨stake, fromCard, primary, hstake, -, hroll, -⟩ := run_stages h
  obtain ⟨-, between, hprimary, hloss⟩ := rollCheck_eq_ok hroll
  rcases hcost : request.purpose.cost? with _ | cost
  · simp only [Variety.stake, hcost] at hstake
    cases hstake
  · simp only [Variety.stake, hcost] at hstake
    cases hstake
    exact ⟨cost, primary, between, rfl, hprimary, hloss⟩

end Dice

/-! ### The worst case -/

/-- **A fumble costs the worst case.**  What it loses is the largest total to which the failure half
of the cost can be rolled, so no failure with the same cost loses more.  The check takes a single
die, and the search for the largest total would take none from any supply. -/
theorem isGreatest_of_fumble {setting : Setting} {request : Request} {game game' : Game}
    {text : Option String} {cost : Cost} {o : Outcome} (hsource : setting.source = .evaluator)
    (hcost : Cost.parse text = .ok cost) (hrequest : request.purpose.cost? = some cost)
    (hrun : run setting .sanity request game = (.ok o, game')) (hfumble : o.level = .criticalFail) :
    IsGreatest (totals cost.failure 100) o.magnitude ∧
      (∀ setting₁ request₁ game₁ game₁' o₁, setting₁.source = .evaluator →
        request₁.purpose.cost? = some cost →
        run setting₁ .sanity request₁ game₁ = (.ok o₁, game₁') → o₁.level = .fail →
        o₁.magnitude ≤ o.magnitude) ∧
      game'.supply = { game.supply with drawn := game.supply.drawn + 1 } ∧
      ∀ supply, (read highest cost.failure 100 supply).2 = supply := by
  obtain ⟨cost', primary, between, hpurpose, hprimary, hloss⟩ := run_sanity_eq_ok hrun
  obtain rfl := Option.some.inj (hpurpose.symm.trans hrequest)
  rw [hsource] at hprimary hloss
  rw [hfumble] at hloss
  obtain ⟨hlargest, hfound, hsupply⟩ := sanityLoss_criticalFail hloss
  have hscale := symbol_notMem_of_loss (Cost.parse_eq_ok hcost).2
  have hgreatest := isGreatest_totals (largest?_of_largest hfound hlargest) hscale
  refine ⟨hgreatest, ?_, ?_, read_highest_snd cost'.failure 100⟩
  · intro setting₁ request₁ game₁ game₁' o₁ hsource₁ hrequest₁ hrun₁ hfail
    obtain ⟨cost₁, primary₁, between₁, hpurpose₁, -, hloss₁⟩ := run_sanity_eq_ok hrun₁
    obtain rfl := Option.some.inj (hpurpose₁.symm.trans hrequest₁)
    rw [hsource₁, hfail] at hloss₁
    exact hgreatest.2 ⟨between₁, _, _, rollStake_eq_ok hloss₁, rfl⟩
  · obtain ⟨detail, hdie⟩ := roll_percentile game.supply
    rw [hsupply]
    exact (Prod.mk.inj (hprimary.symm.trans hdie)).2

/-- A check against forty, with no cards, on dice that show a hundred. -/
def hundredAgainstForty (cost : Cost) : Except Error Outcome × Game :=
  run ⟨.evaluator, .builtIn, .rule0, 100⟩ .sanity ⟨"", sanity, some 40, "", .sanity (some cost)⟩
    ⟨⟨.empty, false⟩, .empty, .ofList [100]⟩

/-- The die behind the minus shows a one when the loss is largest. -/
theorem isGreatest_of_fumble_subtracted :
    ∃ cost o game', Cost.parse (some "0/1d6-1d4") = .ok cost ∧
      hundredAgainstForty cost = (.ok o, game') ∧ o.level = .criticalFail ∧
      IsGreatest (totals cost.failure 100) 5 ∧ game'.supply.drawn = 1 := by
  have hcost : Cost.parse (some "0/1d6-1d4") = .ok ⟨"0", "1d6-1d4"⟩ := by decide
  obtain ⟨o, game', hrun, hlevel, hmagnitude⟩ : ∃ o game',
      hundredAgainstForty ⟨"0", "1d6-1d4"⟩ = (.ok o, game') ∧ o.level = .criticalFail ∧
        o.magnitude = 5 := ⟨_, _, rfl, rfl, rfl⟩
  have hfumble := isGreatest_of_fumble rfl hcost rfl hrun hlevel
  rw [hmagnitude] at hfumble
  exact ⟨_, o, game', hcost, hrun, hlevel, hfumble.1, congrArg Supply.drawn hfumble.2.2.1⟩

/-! ### Costs that can be rolled -/

/-- A positive value may be rolled against. -/
theorem Variety.check_of_pos (variety : Variety) {n : Int} (h : 0 < n) :
    variety.check n = .ok n := by
  have hbound : ¬(n < 0 ∨ (n = 0 ∧ ¬variety.allowsZero)) := by omega
  rw [Variety.check, refuseBelow, if_neg hbound]
  rfl

/-- A positive value is found, whether it is given with the request or stands on the card. -/
theorem findReference_of_pos (variety : Variety) {request : Request} {name : String}
    {store : CardStore} {reference : Int} (hpos : 0 < reference)
    (h : request.explicit.or (store.get? request.card name) = some reference) :
    findReference variety request name store = .ok (reference, request.explicit.isNone) := by
  unfold findReference
  rcases hexplicit : request.explicit with _ | n
  · rw [hexplicit, Option.none_or] at h
    simp only [h, variety.check_of_pos hpos]
    rfl
  · rw [hexplicit, Option.some_or] at h
    obtain rfl := Option.some.inj h
    simp only [variety.check_of_pos hpos]
    rfl

/-- A fumble rolls nothing but the hundred-sided die, and is not refused if the largest loss is
known. -/
theorem rollCheck_fumble {setting : Setting} {cost : Cost} {reference worst : Int}
    {supply between : Supply} {primary : Roll}
    (hprimary : setting.source.roll "1d100" 100 supply = (.ok primary, between))
    (hfumble : classify primary.total reference setting.rule = .criticalFail)
    (hworst : setting.source.largest cost.failure 100 = worst) (hknown : worst ≠ -1) :
    ∃ detail, rollCheck setting .sanity (.loss cost) reference supply =
      (.ok (primary, .criticalFail, worst, detail), between) := by
  have hdie : Command.ofRoll Error.dice (setting.source.roll "1d100" 100) supply =
      (.ok primary, between) := by
    rw [Command.ofRoll, hprimary]
  have hloss : sanityLoss setting.source cost .criticalFail between =
      (.ok (worst, "Max\x7b" ++ cost.failure ++ "\x7d=" ++ intText worst), between) := by
    simp only [sanityLoss, hworst, if_neg hknown]
    rfl
  refine ⟨"Max\x7b" ++ cost.failure ++ "\x7d=" ++ intText worst, ?_⟩
  rw [rollCheck, Command.bind_apply, hdie]
  simp only [Command.bind_apply, Variety.classify, hfumble, Stake.roll, hloss]
  rfl

/-- **A fumble does not refuse a cost that can be rolled**, unless its largest loss is minus one,
the number that also says that there is none.  Let the failure half of a cost be such that all dice
can be rolled for it, and let the check be against a positive value, given or on the card.  If the
hundred-sided die shows a fumble, the check is not refused, and it costs the largest loss. -/
theorem fumble_accepts {setting : Setting} {request : Request} {game : Game} {text : Option String}
    {cost : Cost} {reference : Int} {primary : Roll} {between : Supply}
    (hsource : setting.source = .evaluator) (hcost : Cost.parse text = .ok cost)
    (hrequest : request.purpose.cost? = some cost)
    (hrolls : ∀ supply, ∃ r supply', roll cost.failure 100 supply = (.ok r, supply'))
    (hreference : request.explicit.or
      (game.cards.get? request.card (setting.aliases.normalize request.name)) = some reference)
    (hpos : 0 < reference)
    (hprimary : setting.source.roll "1d100" 100 game.supply = (.ok primary, between))
    (hfumble : classify primary.total reference setting.rule = .criticalFail)
    (hworst : ¬IsGreatest (totals cost.failure 100) (-1)) :
    ∃ o game', run setting .sanity request game = (.ok o, game') ∧ o.level = .criticalFail ∧
      IsGreatest (totals cost.failure 100) o.magnitude := by
  obtain ⟨worst, hfound⟩ := largest?_eq_ok_of_roll hrolls
  have hgreatest : IsGreatest (totals cost.failure 100) worst :=
    isGreatest_totals hfound (symbol_notMem_of_loss (Cost.parse_eq_ok hcost).2)
  have hknown : worst ≠ -1 := by
    rintro rfl
    exact hworst hgreatest
  have hlargest : setting.source.largest cost.failure 100 = worst := by
    rw [hsource]
    show largest cost.failure 100 = worst
    rw [largest, hfound]
  have hstake : Variety.sanity.stake request = .ok (.loss cost) := by
    simp only [Variety.stake, hrequest]
  obtain ⟨detail, hroll⟩ := rollCheck_fumble hprimary hfumble hlargest hknown
  rw [run_apply]
  simp only [hstake, findReference_of_pos .sanity hpos hreference, hroll]
  exact ⟨_, _, rfl, rfl, hgreatest⟩

/-- A die of which another one is taken away. -/
theorem fumble_accepts_subtracted :
    ∃ cost o game', Cost.parse (some "0/1d6-1d4") = .ok cost ∧
      (∀ supply, ∃ r supply', roll cost.failure 100 supply = (.ok r, supply')) ∧
      hundredAgainstForty cost = (.ok o, game') ∧ o.level = .criticalFail ∧
      IsGreatest (totals cost.failure 100) o.magnitude := by
  have hcost : Cost.parse (some "0/1d6-1d4") = .ok ⟨"0", "1d6-1d4"⟩ := by decide
  have htokens : tokens "1d6-1d4" =
      .ok [.dice ['1'] 'd' ['6'], .sign .minus, .dice ['1'] 'd' ['4']] := by decide +kernel
  have hrolls : ∀ supply, ∃ r supply', roll "1d6-1d4" 100 supply = (.ok r, supply') := by
    intro supply
    have hbounds : (Tree.sum (.dice (some 1) (some 6)) .minus (.dice (some 1) (some 4))).InBounds
        100 supply.value supply.drawn := by
      refine ⟨⟨⟨by decide, by decide⟩, by decide, by decide⟩,
        ⟨⟨by decide, by decide⟩, by decide, by decide⟩, ?_⟩
      have hsix := sum_shown_le (by decide : 0 < 6) supply.value supply.drawn 1
      have hfour := sum_shown_le (by decide : 0 < 4) supply.value (supply.drawn + 1) 1
      have hmax : 6 ≤ maxTotal := by decide
      show ((shown 6 supply.value supply.drawn 1).sum +
        -((shown 4 supply.value (supply.drawn + 1) 1).sum : Int) : Int).natAbs ≤ maxTotal
      omega
    obtain ⟨detail, hroll⟩ := roll_of_inBounds "1d6-1d4" 100 supply htokens hbounds
    exact ⟨_, _, hroll⟩
  have hworst : ¬IsGreatest (totals "1d6-1d4" 100) (-1) := by
    intro hgreatest
    have hfive : (5 : Int) ∈ totals "1d6-1d4" 100 := mem_totals (by decide +kernel)
    exact absurd (hgreatest.2 hfive) (by decide)
  obtain ⟨detail, hdie⟩ := roll_percentile (.ofList [100])
  have hfumble : classify 100 40 .rule0 = .criticalFail := by decide
  obtain ⟨o, game', hrun, hlevel, hmagnitude⟩ :=
    @fumble_accepts ⟨.evaluator, .builtIn, .rule0, 100⟩
      ⟨"", sanity, some 40, "", .sanity (some ⟨"0", "1d6-1d4"⟩)⟩
      ⟨⟨.empty, false⟩, .empty, .ofList [100]⟩ (some "0/1d6-1d4") ⟨"0", "1d6-1d4"⟩ 40
      ⟨100, detail⟩ _ rfl hcost rfl hrolls (Option.some_or ..) (by decide) hdie hfumble hworst
  exact ⟨_, o, game', hcost, hrolls, hrun, hlevel, hmagnitude⟩

/-- **A largest loss of minus one is taken for none.**  All dice can be rolled for the failure half,
and a fumble would cost minus one, but the check is refused. -/
theorem fumble_refuses_minus_one :
    ∃ cost, Cost.parse (some "0/1d6-7") = .ok cost ∧
      (∀ supply, ∃ r supply', roll cost.failure 100 supply = (.ok r, supply')) ∧
      IsGreatest (totals cost.failure 100) (-1) ∧ classify 100 40 .rule0 = .criticalFail ∧
      (hundredAgainstForty cost).1 = .error (.format (.noLargest "1d6-7")) := by
  have hcost : Cost.parse (some "0/1d6-7") = .ok ⟨"0", "1d6-7"⟩ := by decide
  have htokens : tokens "1d6-7" = .ok [.dice ['1'] 'd' ['6'], .sign .minus, .number ['7']] := by
    decide +kernel
  have hrolls : ∀ supply, ∃ r supply', roll "1d6-7" 100 supply = (.ok r, supply') := by
    intro supply
    have hbounds : (Tree.sum (.dice (some 1) (some 6)) .minus (.number ['7'])).InBounds 100
        supply.value supply.drawn := by
      refine ⟨⟨⟨by decide, by decide⟩, by decide, by decide⟩, trivial, ?_⟩
      have hsix := sum_shown_le (by decide : 0 < 6) supply.value supply.drawn 1
      have hmax : 7 ≤ maxTotal := by decide
      show ((shown 6 supply.value supply.drawn 1).sum + -7 : Int).natAbs ≤ maxTotal
      omega
    obtain ⟨detail, hroll⟩ := roll_of_inBounds "1d6-7" 100 supply htokens hbounds
    exact ⟨_, _, hroll⟩
  have hgreatest : IsGreatest (totals "1d6-7" 100) (-1) :=
    isGreatest_totals (by decide +kernel) (symbol_notMem_of_loss (Cost.parse_eq_ok hcost).2)
  exact ⟨_, hcost, hrolls, hgreatest, by decide, rfl⟩

end Tabletop.Check
