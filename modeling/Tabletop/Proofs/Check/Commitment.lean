import Tabletop.Check.Run

/-!
# What a check does to the cards

A check finds its reference before any die is rolled, and it writes to the card after the last die.
So a check that is refused leaves all cards as they were, and one that is refused for its reference
takes no dice either.  A check that is not refused writes one attribute at most: the value that it
reports, if the reference came from the card and something was lost or won.

## Main definitions

* `Error.aboutReference` — the errors of a reference that is missing or out of bounds.
* `Variety.Changes` — whether the dice ask for a change of the value.

## Main results

* `findReference_eq_ok` — where the reference comes from.
* `run_apply`, `run_stages`, `run_refused` — a check stage by stage.
* `rollCheck_eq_ok` — the dice of a check.
* `aboutReference_of_rollCheck` — dice that cannot be rolled are no fault of the reference.
* `run_eq_error`, `run_eq_ok` — what a check does to the game when it is refused, and when not.
* `run_commits` — **the cards after a check are as it reports.**
-/

namespace Tabletop

/-- Whether an error is about the value to roll against: the attribute is missing, or its value is
out of bounds. -/
def Error.aboutReference : Error → Bool
  | .missingAttribute _ => true
  | .range (.reference _) => true
  | _ => false

namespace Check

open Dice

/-! ### The stages -/

section Stages

variable {setting : Setting} {variety : Variety} {request : Request} {name : String}

theorem Variety.check_eq_ok {n r : Int} (h : variety.check n = .ok r) : r = n := by
  unfold Variety.check at h
  rcases hbound : refuseBelow variety.allowsZero n (Text.intText n) with e | u
  · rw [hbound] at h
    cases h
  · rw [hbound] at h
    exact (Except.ok.inj h).symm

/-- **A reference is either given with the request or found on the card.** -/
theorem findReference_eq_ok {store : CardStore} {reference : Int} {fromCard : Bool}
    (h : findReference variety request name store = .ok (reference, fromCard)) :
    (fromCard = false ∧ request.explicit = some reference) ∨
      (fromCard = true ∧ request.explicit = none ∧
        store.get? request.card name = some reference) := by
  unfold findReference at h
  rcases hexplicit : request.explicit with _ | n
  · simp only [hexplicit] at h
    rcases hvalue : store.get? request.card name with _ | n
    · simp only [hvalue] at h
      cases h
    · simp only [hvalue] at h
      rcases hcheck : variety.check n with e | r
      · rw [hcheck] at h
        cases h
      · rw [hcheck] at h
        obtain rfl := Variety.check_eq_ok hcheck
        obtain ⟨rfl, rfl⟩ := Prod.mk.inj (Except.ok.inj h)
        exact Or.inr ⟨rfl, rfl, rfl⟩
  · simp only [hexplicit] at h
    rcases hcheck : variety.check n with e | r
    · rw [hcheck] at h
      cases h
    · rw [hcheck] at h
      obtain rfl := Variety.check_eq_ok hcheck
      obtain ⟨rfl, rfl⟩ := Prod.mk.inj (Except.ok.inj h)
      exact Or.inl ⟨rfl, rfl⟩

/-- A check stage by stage. -/
theorem run_apply (setting : Setting) (variety : Variety) (request : Request) (game : Game) :
    run setting variety request game =
      match variety.stake request with
      | .error e => (.error e, game)
      | .ok stake =>
        match findReference variety request (setting.aliases.normalize request.name) game.cards with
        | .error e => (.error e, game)
        | .ok (reference, fromCard) =>
          match rollCheck setting variety stake reference game.supply with
          | (.error e, supply) => (.error e, { game with supply := supply })
          | (.ok (primary, level, magnitude, detail), supply) =>
            let value := variety.newValue reference magnitude
            let written := commit setting request (setting.aliases.normalize request.name)
              (fromCard && variety.commits level magnitude) value game.cards
            (.ok ⟨primary.total, reference, level, magnitude, value, written.1, primary.detail,
              detail⟩, { game with supply := supply, cards := written.2 }) := by
  unfold run
  rw [Play.bind_apply, Play.ofExcept_apply]
  rcases variety.stake request with e | stake
  · rfl
  simp only [Play.bind_apply, Play.get_apply, Play.ofExcept_apply]
  rcases findReference variety request (setting.aliases.normalize request.name) game.cards with
    e | ⟨reference, fromCard⟩
  · rfl
  simp only [Play.ofCommand_apply]
  rcases rollCheck setting variety stake reference game.supply with
    ⟨e | ⟨primary, level, magnitude, detail⟩, supply⟩
  · rfl
  · rfl

/-- **A check that is not refused** has found its reference, rolled its dice, and then written its
value. -/
theorem run_stages {game game' : Game} {o : Outcome}
    (h : run setting variety request game = (.ok o, game')) :
    ∃ stake fromCard primary,
      variety.stake request = .ok stake ∧
        findReference variety request (setting.aliases.normalize request.name) game.cards =
          .ok (o.reference, fromCard) ∧
        rollCheck setting variety stake o.reference game.supply =
          (.ok (primary, o.level, o.magnitude, o.magnitudeDetail), game'.supply) ∧
        o.roll = primary.total ∧ o.newValue = variety.newValue o.reference o.magnitude ∧
        (o.committed, game'.cards) =
          commit setting request (setting.aliases.normalize request.name)
            (fromCard && variety.commits o.level o.magnitude) o.newValue game.cards := by
  rw [run_apply] at h
  rcases hstake : variety.stake request with e | stake
  · simp only [hstake] at h
    cases h
  simp only [hstake] at h
  rcases hreference : findReference variety request (setting.aliases.normalize request.name)
    game.cards with e | ⟨reference, fromCard⟩
  · simp only [hreference] at h
    cases h
  simp only [hreference] at h
  rcases hroll : rollCheck setting variety stake reference game.supply with
    ⟨e | ⟨primary, level, magnitude, detail⟩, supply⟩
  · simp only [hroll] at h
    cases h
  simp only [hroll] at h
  obtain ⟨ho, rfl⟩ := Prod.mk.inj h
  obtain rfl := Except.ok.inj ho
  exact ⟨stake, fromCard, primary, rfl, rfl, hroll, rfl, rfl, rfl⟩

/-- **A check that is refused** lacks its stake or its reference, or its dice cannot be rolled. -/
theorem run_refused {game game' : Game} {e : Error}
    (h : run setting variety request game = (.error e, game')) :
    (variety.stake request = .error e ∧ game' = game) ∨
      (findReference variety request (setting.aliases.normalize request.name) game.cards =
          .error e ∧ game' = game) ∨
      ∃ stake reference supply,
        rollCheck setting variety stake reference game.supply = (.error e, supply) ∧
          game' = { game with supply := supply } := by
  rw [run_apply] at h
  rcases hstake : variety.stake request with e' | stake
  · simp only [hstake] at h
    cases h
    exact Or.inl ⟨rfl, rfl⟩
  simp only [hstake] at h
  rcases hreference : findReference variety request (setting.aliases.normalize request.name)
    game.cards with e' | ⟨reference, fromCard⟩
  · simp only [hreference] at h
    cases h
    exact Or.inr (Or.inl ⟨rfl, rfl⟩)
  simp only [hreference] at h
  rcases hroll : rollCheck setting variety stake reference game.supply with ⟨e' | r, supply⟩
  · simp only [hroll] at h
    cases h
    exact Or.inr (Or.inr ⟨stake, reference, supply, hroll, rfl⟩)
  · simp only [hroll] at h
    cases h

end Stages

/-! ### The dice -/

/-- The hundred-sided die of the evaluator always falls, and it shows the next number of the
supply. -/
theorem roll_percentile (supply : Supply) :
    ∃ detail, Source.evaluator.roll "1d100" 100 supply =
      (.ok ⟨Supply.face 100 (supply.value supply.drawn), detail⟩,
        { supply with drawn := supply.drawn + 1 }) := ⟨_, rfl⟩

/-- The hundred-sided die tells the level, and then what is at stake is rolled for that level. -/
theorem rollCheck_eq_ok {setting : Setting} {variety : Variety} {stake : Stake}
    {reference magnitude : Int} {supply supply' : Supply} {primary : Roll} {level : Level}
    {detail : String}
    (h : rollCheck setting variety stake reference supply =
      (.ok (primary, level, magnitude, detail), supply')) :
    level = variety.classify setting.rule primary.total reference ∧
      ∃ between, setting.source.roll "1d100" 100 supply = (.ok primary, between) ∧
        stake.roll setting.source level between = (.ok (magnitude, detail), supply') := by
  obtain ⟨primary', between, hprimary, hrest⟩ := Command.bind_eq_ok h
  obtain ⟨⟨magnitude', detail'⟩, between', hstake, hresult⟩ := Command.bind_eq_ok hrest
  cases hresult
  exact ⟨rfl, between, Command.ofRoll_eq_ok hprimary, hstake⟩

theorem rollStake_eq_ok {source : Source} {supply supply' : Supply} {magnitude : Int}
    {detail expression : String} {usual : Int}
    (h : rollStake source expression usual supply = (.ok (magnitude, detail), supply')) :
    source.roll expression usual supply = (.ok ⟨magnitude, detail⟩, supply') := by
  obtain ⟨r, between, hroll, hresult⟩ := Command.bind_eq_ok h
  cases hresult
  exact Command.ofRoll_eq_ok hroll

section Errors

variable {source : Source} {supply supply' : Supply} {e : Error}

theorem aboutReference_of_rollStake {expression : String} {usual : Int}
    (h : rollStake source expression usual supply = (.error e, supply')) :
    e.aboutReference = false := by
  rcases Command.bind_eq_error h with hroll | ⟨r, between, -, hresult⟩
  · obtain ⟨f, -, rfl⟩ := Command.ofRoll_eq_error hroll
    rfl
  · cases hresult

/-- A stake that cannot be rolled is not the fault of the reference. -/
theorem aboutReference_of_stake {stake : Stake} {level : Level}
    (h : stake.roll source level supply = (.error e, supply')) : e.aboutReference = false := by
  cases stake with
  | loss cost =>
    cases level with
    | criticalFail =>
      -- A fumble costs the largest loss, which may be unknown.
      simp only [Stake.roll, sanityLoss] at h
      by_cases hworst : source.largest cost.failure 100 = -1
      · rw [if_pos hworst] at h
        obtain rfl := Except.error.inj (Prod.mk.inj h).1
        rfl
      · rw [if_neg hworst] at h
        cases h
    | fail | success | hardSuccess | extremeSuccess | criticalSuccess =>
      exact aboutReference_of_rollStake h
  | gain formula =>
    simp only [Stake.roll, growthGain] at h
    by_cases hsuccess : level.isSuccess = true
    · rw [if_pos hsuccess] at h
      cases formula with
      | none => exact aboutReference_of_rollStake h
      | some f => exact aboutReference_of_rollStake h
    · rw [if_neg hsuccess] at h
      cases h

theorem aboutReference_of_rollCheck {setting : Setting} {variety : Variety} {stake : Stake}
    {reference : Int}
    (h : rollCheck setting variety stake reference supply = (.error e, supply')) :
    e.aboutReference = false := by
  -- The hundred-sided die falls before the stake is rolled.
  rcases Command.bind_eq_error h with hprimary | ⟨primary, between, -, hrest⟩
  · obtain ⟨f, -, rfl⟩ := Command.ofRoll_eq_error hprimary
    rfl
  rcases Command.bind_eq_error hrest with hstake | ⟨r, between', -, hresult⟩
  · exact aboutReference_of_stake hstake
  · cases hresult

end Errors

/-! ### The game after a check -/

section Run

variable {setting : Setting} {variety : Variety} {request : Request} {game game' : Game}

/-- **A check that is refused changes no card**, and if its reference is at fault, nothing at
all. -/
theorem run_eq_error {e : Error} (h : run setting variety request game = (.error e, game')) :
    game'.cards = game.cards ∧ (e.aboutReference = true → game'.supply = game.supply) := by
  rcases run_refused h with ⟨-, rfl⟩ | ⟨-, rfl⟩ | ⟨stake, reference, supply, hroll, rfl⟩
  · exact ⟨rfl, fun _ => rfl⟩
  · exact ⟨rfl, fun _ => rfl⟩
  · refine ⟨rfl, fun habout => ?_⟩
    rw [aboutReference_of_rollCheck hroll] at habout
    cases habout

/-- Whether the dice of a check ask for a change of the value: something was lost, or the roll was
above the skill. -/
def Variety.Changes (variety : Variety) (roll reference magnitude : Int) : Prop :=
  match variety with
  | sanity => magnitude ≠ 0
  | growth => reference < roll

instance : (variety : Variety) → (roll reference magnitude : Int) →
    Decidable (variety.Changes roll reference magnitude)
  | .sanity, _, _, magnitude => inferInstanceAs (Decidable (magnitude ≠ 0))
  | .growth, roll, reference, _ => inferInstanceAs (Decidable (reference < roll))

/-- The level of a growth check tells whether the roll was above the skill. -/
theorem commits_classify (variety : Variety) (rule : HouseRule) (roll reference magnitude : Int) :
    variety.commits (variety.classify rule roll reference) magnitude =
      decide (variety.Changes roll reference magnitude) := by
  cases variety with
  | sanity =>
    rw [Bool.eq_iff_iff, decide_eq_true_eq]
    exact bne_iff_ne
  | growth =>
    show (if reference < roll then Level.success else Level.fail).isSuccess =
      decide (reference < roll)
    by_cases habove : reference < roll
    · rw [if_pos habove, decide_eq_true habove]
      rfl
    · rw [if_neg habove, decide_eq_false habove]
      rfl

/-- **A check that is not refused** writes the value that it reports, if the reference came from the
card and the dice ask for a change. -/
theorem run_eq_ok {o : Outcome} (h : run setting variety request game = (.ok o, game')) :
    o.newValue = variety.newValue o.reference o.magnitude ∧
      (request.explicit = some o.reference ∨ request.explicit = none ∧
        game.cards.get? request.card (setting.aliases.normalize request.name) =
          some o.reference) ∧
      (o.committed, game'.cards) =
        if request.explicit = none ∧ variety.Changes o.roll o.reference o.magnitude then
          game.cards.set request.card (setting.aliases.normalize request.name) o.newValue
            setting.cap
        else (false, game.cards) := by
  obtain ⟨stake, fromCard, primary, -, hreference, hroll, hprimary, hvalue, hwritten⟩ :=
    run_stages h
  have hcommits := commits_classify variety setting.rule primary.total o.reference o.magnitude
  rw [← (rollCheck_eq_ok hroll).1, ← hprimary] at hcommits
  refine ⟨hvalue, ?_, ?_⟩
  · rcases findReference_eq_ok hreference with ⟨-, hexplicit⟩ | ⟨-, hexplicit, hfound⟩
    · exact Or.inl hexplicit
    · exact Or.inr ⟨hexplicit, hfound⟩
  · have hwanted : (fromCard && variety.commits o.level o.magnitude) = true ↔
        request.explicit = none ∧ variety.Changes o.roll o.reference o.magnitude := by
      rw [hcommits, Bool.and_eq_true, decide_eq_true_eq]
      refine and_congr_left fun _ => ?_
      rcases findReference_eq_ok hreference with ⟨rfl, hexplicit⟩ | ⟨rfl, hexplicit, -⟩
      · rw [hexplicit]
        exact iff_of_false Bool.false_ne_true (Option.some_ne_none o.reference)
      · exact iff_of_true rfl hexplicit
    rw [hwritten]
    exact ite_congr (propext hwanted) (fun _ => rfl) (fun _ => rfl)

/-- A write to an attribute that was found on the card is accepted unless the store is read-only. -/
theorem cards_of_written {name : String} {o : Outcome} {cards cards' : CardStore} {cap : Int}
    (hreference : request.explicit = some o.reference ∨
      request.explicit = none ∧ cards.get? request.card name = some o.reference)
    (hwritten : (o.committed, cards') =
      if request.explicit = none ∧ variety.Changes o.roll o.reference o.magnitude then
        cards.set request.card name o.newValue cap
      else (false, cards)) :
    (o.committed = true ↔ request.explicit = none ∧
        variety.Changes o.roll o.reference o.magnitude ∧ cards.readOnly = false) ∧
      cards' = if o.committed = true then cards.write request.card name o.newValue else cards := by
  by_cases hwanted : request.explicit = none ∧ variety.Changes o.roll o.reference o.magnitude
  · have hfound : cards.get? request.card name = some o.reference := by
      rcases hreference with hgiven | ⟨-, hfound⟩
      · rw [hwanted.1] at hgiven
        cases hgiven
      · exact hfound
    rw [if_pos hwanted, CardStore.set_of_get? hfound] at hwritten
    rcases hstore : cards.readOnly with _ | _
    · obtain ⟨hcommitted, rfl⟩ := Prod.mk.inj (hwritten.trans (if_neg (by rw [hstore]; decide)))
      simp [hcommitted, hwanted]
    · obtain ⟨hcommitted, rfl⟩ := Prod.mk.inj (hwritten.trans (if_pos hstore))
      simp [hcommitted]
  · rw [if_neg hwanted] at hwritten
    obtain ⟨hcommitted, rfl⟩ := Prod.mk.inj hwritten
    rw [hcommitted, if_neg Bool.false_ne_true]
    refine ⟨iff_of_false Bool.false_ne_true ?_, rfl⟩
    rintro ⟨hexplicit, hchanges, -⟩
    exact hwanted ⟨hexplicit, hchanges⟩

end Run

/-- **The cards after a check are as it reports.**  A check that is refused changes no card, and it
takes no dice if its reference is missing or out of bounds.  A check that is not refused writes to
the card once at most: the value that it reports, to the attribute that it was about, if the
reference came from the card and something was lost or the roll was above the skill.  It reports
whether that write was accepted, which it always is unless the store is read-only. -/
theorem run_commits (setting : Setting) (variety : Variety) (request : Request) (game : Game) :
    match run setting variety request game with
    | (.error e, game') =>
      game'.cards = game.cards ∧ (e.aboutReference = true → game'.supply = game.supply)
    | (.ok o, game') =>
      let name := setting.aliases.normalize request.name
      o.newValue =
          (match variety with
          | .sanity => max 0 (o.reference - o.magnitude)
          | .growth => o.reference + o.magnitude) ∧
        (request.explicit = some o.reference ∨
          request.explicit = none ∧ game.cards.get? request.card name = some o.reference) ∧
        (o.committed, game'.cards) =
          (if request.explicit = none ∧ variety.Changes o.roll o.reference o.magnitude then
            game.cards.set request.card name o.newValue setting.cap
          else (false, game.cards)) ∧
        (o.committed = true ↔ request.explicit = none ∧
          variety.Changes o.roll o.reference o.magnitude ∧ game.cards.readOnly = false) ∧
        ∀ card' name', game'.cards.get? card' name' =
          if o.committed = true ∧ request.card = card' ∧ name = name' then some o.newValue
          else game.cards.get? card' name' := by
  rcases hrun : run setting variety request game with ⟨e | o, game'⟩
  · exact run_eq_error hrun
  obtain ⟨hvalue, hreference, hwritten⟩ := run_eq_ok hrun
  obtain ⟨hcommitted, hcards⟩ := cards_of_written hreference hwritten
  refine ⟨by cases variety <;> exact hvalue, hreference, hwritten, hcommitted, ?_⟩
  intro card' name'
  by_cases hdone : o.committed = true
  · rw [hcards, if_pos hdone, CardStore.get?_write]
    simp only [hdone, true_and]
  · rw [hcards, if_neg hdone, if_neg fun h => hdone h.1]

end Check

end Tabletop
