import Tabletop.Proofs.Check.Sign
import Tabletop.Proofs.Dice.Extremes

/-!
# Skills grow, and stop growing

A growth check rolls a hundred-sided die, and a skill grows only if the die shows more than the
skill has.  What it grows by are dice, so it is at least one.  A skill of a hundred cannot be
exceeded by the die, so once it is there it stays what it is; and since a skill that grows had less
than a hundred, the ten-sided die does not lead beyond 109.

## Main definitions

* `SkillCheck` — a growth check of the value that a card has for a skill.
* `runAll` — such checks one after another.
* `Reaches` — what growth can make of a value.

## Main results

* `one_le_total_of_isDice` — dice with a number of faces never come to less than one.
* `SkillCheck.run_eq_ok`, `SkillCheck.run_eq_error` — what a single check does to the value.
* `reaches_runAll` — what a run of checks does to it.
* `skill_grows_to_its_limit` — **growth is monotone and limits itself**, over whole runs.
-/

namespace Tabletop.Check

open Dice Text

/-! ### Dice with a number of faces -/

theorem exists_of_isDice {cs : List Char} (h : isDice cs = true) :
    ∃ count letter faces, (Token.dice count letter faces).chars = cs ∧
      (Token.dice count letter faces).isWritten = true := by
  have hcs := List.takeWhile_append_dropWhile (p := isDigit) (l := cs)
  unfold isDice at h
  split at h
  · next letter faces hrest =>
    rw [hrest] at hcs
    rw [Bool.and_eq_true, Bool.and_eq_true] at h
    refine ⟨_, letter, faces, hcs, ?_⟩
    -- The count may be missing, and then its digits are none.
    have hcount : (cs.takeWhile isDigit).all isDigit = true := by
      rw [List.all_eq_true]
      intro c hc
      exact List.mem_takeWhile_imp hc
    rw [Token.isWritten, hcount, h.2, isDiceLetter, h.1.1]
    rfl
  · cases h

/-- **Dice with a number of faces never come to less than one**: there is at least one die, and no
die shows less than a one. -/
theorem one_le_total_of_isDice {expression : String} {usual : Int} {supply supply' : Supply}
    {r : Roll} (hdice : isDice expression.toList = true)
    (h : roll expression usual supply = (.ok r, supply')) : 1 ≤ r.total := by
  obtain ⟨count, letter, faces, hchars, hwritten⟩ := exists_of_isDice hdice
  obtain ⟨ts, t, hevaluates, htotal⟩ := Evaluates.of_roll h
  -- The text is a single token, so its tree is that of the token.
  have hspells : Spells expression.toList [.dice count letter faces] := by
    have hlast := Spells.cons_token hwritten (.blanks (List.forall_mem_nil _))
    rwa [hchars, List.append_nil] at hlast
  obtain ⟨-, rfl⟩ := hevaluates.unique hspells (.term (.factor (.dice count letter faces)))
  have hcount : 1 ≤ (numeral? count).getD 1 := hevaluates.inBounds.1.1
  have hsum := le_sum_shown (Tree.facesOr usual (numeral? faces)).toNat supply.value supply.drawn
    ((numeral? count).getD 1)
  rw [htotal, Tree.value]
  omega

/-- The growth half of a formula is dice with a number of faces. -/
theorem Formula.isDice_success {cs : List Char} {f : Formula} (h : Formula.ofChars? cs = some f) :
    isDice f.success.toList = true := by
  unfold Formula.ofChars? at h
  split at h
  · split at h
    · split at h
      · next hdice =>
        cases h
        rw [Bool.and_eq_true] at hdice
        rw [String.toList_ofList]
        exact hdice.1
      · cases h
    · cases h
  · cases h

/-- The ten-sided die shows one number of the supply. -/
theorem roll_ten_sided (supply : Supply) :
    ∃ detail supply', Source.evaluator.roll "1d10" 10 supply =
      (.ok ⟨Supply.face 10 (supply.value supply.drawn), detail⟩, supply') := ⟨_, _, rfl⟩

/-! ### One check -/

/-- A skill that grows grows by one at least, and by ten at most where there is no formula. -/
theorem growthGain_bounds {formula : Option Formula} {level : Level} {supply supply' : Supply}
    {magnitude : Int} {detail : String}
    (hformula : ∀ f ∈ formula, ∃ cs, Formula.ofChars? cs = some f)
    (hlevel : level.isSuccess = true)
    (h : growthGain .evaluator formula level supply = (.ok (magnitude, detail), supply')) :
    1 ≤ magnitude ∧ (formula = none → magnitude ≤ 10) := by
  simp only [growthGain, if_pos hlevel] at h
  cases formula with
  | none =>
    obtain ⟨shown, between, hdie⟩ := roll_ten_sided supply
    have hroll := (rollStake_eq_ok h).symm.trans hdie
    cases hroll
    have hlow := Supply.one_le_face 10 (supply.value supply.drawn)
    have hhigh := Supply.face_le (by decide : 0 < 10) (supply.value supply.drawn)
    exact ⟨by omega, fun _ => by omega⟩
  | some f =>
    obtain ⟨cs, hcs⟩ := hformula f rfl
    have hone := one_le_total_of_isDice (Formula.isDice_success hcs) (rollStake_eq_ok h)
    refine ⟨hone, ?_⟩
    intro hnone
    cases hnone

/-- A growth check of the value that a card has for a skill, in any of its spellings.  A
formula in it is one that was read. -/
structure SkillCheck (card skill : String) where
  /-- What the check is run with. -/
  setting : Setting
  /-- What is asked. -/
  request : Request
  /-- The dice are those of the evaluator. -/
  evaluates : setting.source = .evaluator
  /-- The reference is taken from the card. -/
  fromCard : request.explicit = none
  /-- The check is for the card. -/
  onCard : request.card = card
  /-- The check is about the skill. -/
  about : setting.aliases.normalize request.name = skill
  /-- A formula was read from a text. -/
  accepted : ∀ f ∈ request.purpose.formula?, ∃ cs, Formula.ofChars? cs = some f

namespace SkillCheck

variable {card skill : String}

/-- Runs the check. -/
def run (check : SkillCheck card skill) : Play Outcome :=
  Check.run check.setting .growth check.request

/-- There is no formula, so the skill grows by the ten-sided die. -/
def IsStandard (check : SkillCheck card skill) : Prop :=
  check.request.purpose.formula? = none

variable {check : SkillCheck card skill} {game game' : Game}

/-- A check that is refused changes no card. -/
theorem run_eq_error {e : Error} (h : check.run game = (.error e, game')) :
    game'.cards = game.cards :=
  (Check.run_eq_error h).1

/-- **A check that is not refused** lets the value grow if the hundred-sided die shows more, by one
at least; else it leaves the cards as they are. -/
theorem run_eq_ok {o : Outcome} (hstore : game.cards.readOnly = false)
    (h : check.run game = (.ok o, game')) :
    o.roll = Supply.face 100 (game.supply.value game.supply.drawn) ∧
      game.cards.get? card skill = some o.reference ∧
      (o.roll ≤ o.reference → game'.cards = game.cards) ∧
      (o.reference < o.roll → 1 ≤ o.magnitude ∧ (check.IsStandard → o.magnitude ≤ 10) ∧
        game'.cards = game.cards.write card skill (o.reference + o.magnitude)) := by
  obtain ⟨stake, fromCard, primary, hstake, -, hroll, hprimary, -⟩ := run_stages h
  obtain ⟨hlevel, between, hdie, hgain⟩ := rollCheck_eq_ok hroll
  obtain ⟨hvalue, hreference, hwritten⟩ := Check.run_eq_ok h
  obtain ⟨hcommitted, hcards⟩ := cards_of_written hreference hwritten
  rw [check.onCard, check.about] at hreference hcards
  rw [check.evaluates] at hdie hgain
  -- The request gives no reference, so it is the value on the card.
  have hfound : game.cards.get? card skill = some o.reference := by
    rcases hreference with hgiven | ⟨-, hfound⟩
    · rw [check.fromCard] at hgiven
      cases hgiven
    · exact hfound
  refine ⟨?_, hfound, ?_, ?_⟩
  · obtain ⟨shown, hpercentile⟩ := roll_percentile game.supply
    have hsame := hdie.symm.trans hpercentile
    cases hsame
    exact hprimary
  · intro hle
    -- What is committed was exceeded by the die.
    have hkept : ¬ o.committed = true := by
      intro hdone
      exact Int.not_lt.2 hle (hcommitted.1 hdone).2.1
    rw [hcards, if_neg hkept]
  · intro hlt
    have hdone : o.committed = true := hcommitted.2 ⟨check.fromCard, hlt, hstore⟩
    have hsuccess : o.level.isSuccess = true := by
      rw [hlevel, ← hprimary, Variety.classify, if_pos hlt]
      rfl
    cases hstake
    obtain ⟨hone, hten⟩ := growthGain_bounds check.accepted hsuccess hgain
    refine ⟨hone, hten, ?_⟩
    rw [hcards, if_pos hdone, hvalue]
    rfl

end SkillCheck

/-! ### Runs of checks -/

variable {card skill : String}

/-- Growth checks one after another; one that is refused does not keep the others from being run. -/
def runAll (checks : List (SkillCheck card skill)) (game : Game) : Game :=
  checks.foldl (fun game check => (check.run game).2) game

/-- What growth can make of a value: the value itself, or a larger one if it is below a hundred.
The ten-sided die alone does not lead beyond 109. -/
def Reaches (standard : Prop) (old new : Int) : Prop :=
  new = old ∨ old < 100 ∧ old < new ∧ (standard → new ≤ 109)

theorem Reaches.trans {standard : Prop} {a b c : Int} (hab : Reaches standard a b)
    (hbc : Reaches standard b c) : Reaches standard a c := by
  rcases hab with rfl | ⟨hlow, hgrows, hlimit⟩
  · exact hbc
  rcases hbc with rfl | ⟨-, hgrows', hlimit'⟩
  · exact Or.inr ⟨hlow, hgrows, hlimit⟩
  · exact Or.inr ⟨hlow, Int.lt_trans hgrows hgrows', hlimit'⟩

theorem Reaches.bounds {standard : Prop} {old new : Int} (h : Reaches standard old new) :
    old ≤ new ∧ (100 ≤ old → new = old) ∧ (standard → new ≤ max old 109) := by
  rcases h with rfl | ⟨hlow, hgrows, hlimit⟩
  · exact ⟨Int.le_refl _, fun _ => rfl, fun _ => Int.le_max_left _ _⟩
  · refine ⟨Int.le_of_lt hgrows, fun hhundred => ?_, fun hs => ?_⟩
    · omega
    · exact Int.le_trans (hlimit hs) (Int.le_max_right _ _)

/-- A check does not close the store. -/
theorem readOnly_run (check : SkillCheck card skill) (game : Game) :
    (check.run game).2.cards.readOnly = game.cards.readOnly := by
  rcases hrun : check.run game with ⟨e | o, game'⟩
  · rw [SkillCheck.run_eq_error hrun]
  obtain ⟨-, hreference, hwritten⟩ := Check.run_eq_ok hrun
  rw [(cards_of_written hreference hwritten).2]
  split
  · rfl
  · rfl

theorem readOnly_runAll (checks : List (SkillCheck card skill)) (game : Game) :
    (runAll checks game).cards.readOnly = game.cards.readOnly := by
  induction checks generalizing game with
  | nil => rfl
  | cons check checks ih => exact (ih (check.run game).2).trans (readOnly_run check game)

/-- **One check** takes the value to one that growth can make of it. -/
theorem reaches_run {standard : Prop} (check : SkillCheck card skill)
    (hstandard : standard → check.IsStandard) {game : Game} (hstore : game.cards.readOnly = false)
    {old : Int} (hold : game.cards.get? card skill = some old) :
    ∃ new, (check.run game).2.cards.get? card skill = some new ∧ Reaches standard old new := by
  rcases hrun : check.run game with ⟨e | o, game'⟩
  · rw [SkillCheck.run_eq_error hrun]
    exact ⟨old, hold, Or.inl rfl⟩
  obtain ⟨hroll, hfound, hkept, hgrown⟩ := SkillCheck.run_eq_ok hstore hrun
  obtain rfl := Option.some.inj (hold.symm.trans hfound)
  by_cases hlt : o.reference < o.roll
  · obtain ⟨hone, hten, hcards⟩ := hgrown hlt
    -- The die has a hundred faces, so what it exceeds is less than a hundred.
    have hhigh := Supply.face_le (by decide : 0 < 100) (game.supply.value game.supply.drawn)
    rw [hcards]
    refine ⟨o.reference + o.magnitude, by simp, Or.inr ⟨by omega, by omega, ?_⟩⟩
    intro hs
    have hlimit := hten (hstandard hs)
    omega
  · rw [hkept (Int.not_lt.1 hlt)]
    exact ⟨o.reference, hold, Or.inl rfl⟩

/-- **A run of checks** takes a value to one that growth can make of it. -/
theorem reaches_runAll {standard : Prop} (checks : List (SkillCheck card skill))
    (hstandard : standard → ∀ check ∈ checks, check.IsStandard) {game : Game}
    (hstore : game.cards.readOnly = false) {old : Int}
    (hold : game.cards.get? card skill = some old) :
    ∃ new, (runAll checks game).cards.get? card skill = some new ∧ Reaches standard old new := by
  -- The value after the first check is the one at which the rest of the run starts.
  induction checks generalizing game old with
  | nil => exact ⟨old, hold, Or.inl rfl⟩
  | cons check checks ih =>
    obtain ⟨mid, hmid, hreaches⟩ :=
      reaches_run check (fun hs => hstandard hs check List.mem_cons_self) hstore hold
    obtain ⟨new, hnew, hrest⟩ :=
      ih (fun hs c hc => hstandard hs c (List.mem_cons_of_mem _ hc))
        ((readOnly_run check game).trans hstore) hmid
    exact ⟨new, hnew, hreaches.trans hrest⟩

/-- **Growth is monotone and limits itself.**  Take any run of growth checks of one skill on one
card, in a store that can be written to.  Whenever one of them is not refused, the value changes
exactly if the hundred-sided die shows more than it, and then it becomes larger; one that is refused
leaves it as it was.  In the course of the run the value never falls, from a hundred on it stays
the same, and if all checks use the ten-sided die, it does not exceed 109 unless it did from the
start. -/
theorem skill_grows_to_its_limit (checks : List (SkillCheck card skill)) (game : Game)
    (hstore : game.cards.readOnly = false) :
    (∀ before check after, checks = before ++ check :: after →
      let value := (runAll before game).cards.get? card skill
      match check.run (runAll before game) with
      | (.error _, game') => game'.cards.get? card skill = value
      | (.ok o, game') => ∃ old new, value = some old ∧ game'.cards.get? card skill = some new ∧
          o.roll = Supply.face 100
            ((runAll before game).supply.value (runAll before game).supply.drawn) ∧
          (new ≠ old ↔ old < o.roll) ∧ (old < o.roll → old < new)) ∧
      ∀ before after, before <+: after → after <+: checks →
        ∀ old, (runAll before game).cards.get? card skill = some old →
          ∃ new, (runAll after game).cards.get? card skill = some new ∧ old ≤ new ∧
            (100 ≤ old → new = old) ∧
            ((∀ check ∈ checks, check.IsStandard) → new ≤ max old 109) := by
  refine ⟨?_, ?_⟩
  · intro before check after _
    have hopen := (readOnly_runAll before game).trans hstore
    rcases hrun : check.run (runAll before game) with ⟨e | o, game'⟩
    · show game'.cards.get? card skill = (runAll before game).cards.get? card skill
      rw [SkillCheck.run_eq_error hrun]
    obtain ⟨hroll, hfound, hkept, hgrown⟩ := SkillCheck.run_eq_ok hopen hrun
    by_cases hlt : o.reference < o.roll
    · obtain ⟨hone, -, hcards⟩ := hgrown hlt
      refine ⟨o.reference, o.reference + o.magnitude, hfound, by rw [hcards]; simp, hroll, ?_, ?_⟩
      · exact iff_of_true (by omega) hlt
      · intro _
        omega
    · refine ⟨o.reference, o.reference, hfound, ?_, hroll, ?_, ?_⟩
      · rw [hkept (Int.not_lt.1 hlt), hfound]
      · exact iff_of_false (fun hne => hne rfl) hlt
      · exact fun habove => absurd habove hlt
  · rintro before after ⟨between, rfl⟩ hafter old hold
    -- What is run between the two moments takes the one value to the other.
    have hsplit : runAll (before ++ between) game = runAll between (runAll before game) :=
      List.foldl_append
    have hstandard : (∀ check ∈ checks, check.IsStandard) → ∀ check ∈ between, check.IsStandard :=
      fun hs check hcheck => hs check (hafter.subset (List.mem_append_right before hcheck))
    obtain ⟨new, hnew, hreaches⟩ :=
      reaches_runAll between hstandard ((readOnly_runAll before game).trans hstore) hold
    rw [hsplit]
    exact ⟨new, hnew, hreaches.bounds⟩

/-- A check of education, under its short name. -/
def educationCheck : SkillCheck "c" "教育" where
  setting := ⟨.evaluator, .build [("教育", ["edu"])], .rule0, 100⟩
  request := ⟨"c", "EDU", none, "", .growth none⟩
  evaluates := rfl
  fromCard := rfl
  onCard := rfl
  about := by decide +kernel
  accepted := fun _ hf => nomatch hf

/-- A card with an education of ninety-nine, and dice that show a hundred and then a ten. -/
def wellEducated : Game :=
  ⟨CardStore.empty.write "c" "教育" 99, .empty, .ofList [100, 10]⟩

/-- An education of ninety-nine grows to 109, and not even another hundred makes it grow on. -/
theorem skill_grows_to_its_limit_education :
    wellEducated.cards.readOnly = false ∧
      (runAll [educationCheck] wellEducated).cards.get? "c" "教育" = some 109 ∧
      (runAll [educationCheck, educationCheck] wellEducated).cards.get? "c" "教育" = some 109 := by
  have hgrown : (runAll [educationCheck] wellEducated).cards.get? "c" "教育" = some 109 := by
    decide +kernel
  have hrun := (skill_grows_to_its_limit [educationCheck, educationCheck] wellEducated rfl).2
  obtain ⟨new, hnew, -, hsame, -⟩ :=
    hrun [educationCheck] _ ⟨[educationCheck], rfl⟩ (List.prefix_refl _) 109 hgrown
  rw [hsame (by decide)] at hnew
  exact ⟨rfl, hgrown, hnew⟩

end Tabletop.Check
