import Mathlib.Data.Nat.Find
import Mathlib.Order.Bounds.Basic
import Tabletop.Pool.Roll

/-!
# How many dice an exploding pool has

While a pool is rolled it grows with every die that reaches the threshold, until it has a hundred
dice.  Rolling ends as soon as the dice that have been rolled are as many as the pool then has.
The number of dice is therefore the least number `n` for which the first `n` values make the pool
one of `n` dice.

## Main definitions

* `Throwing.supplyAfter` — what is left of the supply after dice were thrown several times.
* `Spec.sizeAfter` — the number of dice in a pool once some of them have fallen.
* `firstValues` — the first values of an endless sequence.
* `FirstShow` — the first dice that a source rolls show such values.

## Main results

* `isLeast_finalSize` — the least number of dice at which a pool is complete.
* `rollFrom_eq_ok`, `rollFrom_eq_error` — rolling the rest of a pool.
* `rollPool_least` — **a pool is rolled up to the least number of dice at which it is complete**,
  or its first die that fails decides.
* `rollPool_evaluator` — with the usual dice a pool is always rolled.
-/

namespace Tabletop

namespace Dice.Throwing

variable {ε α : Type}

/-- What is left of the supply after something was thrown so many times. -/
def supplyAfter (throwing : Throwing ε α) : Nat → Supply → Supply
  | 0, supply => supply
  | n + 1, supply => supplyAfter throwing n (throwing supply).2

@[simp] theorem supplyAfter_zero (throwing : Throwing ε α) (supply : Supply) :
    throwing.supplyAfter 0 supply = supply := rfl

@[simp] theorem supplyAfter_succ (throwing : Throwing ε α) (n : Nat) (supply : Supply) :
    throwing.supplyAfter (n + 1) supply = throwing.supplyAfter n (throwing supply).2 := rfl

end Dice.Throwing

namespace Pool

/-! ### The size of a pool -/

/-- The number of dice in a pool, once dice have shown the values: those of the start and one for
each value that reaches the threshold, but never more than a hundred. -/
def Spec.sizeAfter (spec : Spec) (draws : List Int) : Nat :=
  min maxPoolDice (spec.count + draws.countP fun v => decide ((spec.threshold : Int) ≤ v))

/-- The first so many values of an endless sequence. -/
def firstValues (values : Nat → Int) (n : Nat) : List Int := (List.range n).map values

@[simp] theorem length_firstValues (values : Nat → Int) (n : Nat) :
    (firstValues values n).length = n := by
  simp [firstValues]

theorem firstValues_succ (values : Nat → Int) (n : Nat) :
    firstValues values (n + 1) = firstValues values n ++ [values n] := by
  simp [firstValues, List.range_succ]

section Size

variable (spec : Spec) (values : Nat → Int)

theorem sizeAfter_le (draws : List Int) : spec.sizeAfter draws ≤ maxPoolDice :=
  Nat.min_le_left _ _

theorem count_le_sizeAfter (draws : List Int) : spec.count ≤ spec.sizeAfter draws :=
  Nat.le_min.2 ⟨spec.count_bounds.2, Nat.le_add_right _ _⟩

/-- One more die makes the pool grow as rolling does. -/
theorem growBy_sizeAfter (draws : List Int) (value : Int) :
    growBy spec.threshold (spec.sizeAfter draws) value = spec.sizeAfter (draws ++ [value]) := by
  unfold growBy Spec.sizeAfter
  rw [List.countP_append, List.countP_singleton]
  by_cases hexplodes : (spec.threshold : Int) ≤ value
  · simp only [hexplodes, true_and, decide_true, if_true]
    split <;> omega
  · simp [hexplodes]

theorem exists_sizeAfter_le : ∃ n, spec.sizeAfter (firstValues values n) ≤ n :=
  ⟨maxPoolDice, sizeAfter_le spec _⟩

/-- The size of a pool when no die is left to be rolled. -/
def finalSize : Nat := Nat.find (exists_sizeAfter_le spec values)

theorem lt_sizeAfter_of_lt_finalSize {n : Nat} (h : n < finalSize spec values) :
    n < spec.sizeAfter (firstValues values n) := by
  exact Nat.not_le.1 (Nat.find_min (exists_sizeAfter_le spec values) h)

/-- A pool of the final size is complete. -/
theorem sizeAfter_finalSize :
    spec.sizeAfter (firstValues values (finalSize spec values)) = finalSize spec values := by
  have hle : spec.sizeAfter (firstValues values (finalSize spec values)) ≤ finalSize spec values :=
    Nat.find_spec (exists_sizeAfter_le spec values)
  refine Nat.le_antisymm hle ?_
  rcases hsize : finalSize spec values with _ | n
  · exact Nat.zero_le _
  · -- One die before, the pool had more dice than had fallen, and it does not shrink.
    have hbefore := lt_sizeAfter_of_lt_finalSize spec values (n := n) (by omega)
    have hgrown := le_growBy spec.threshold (spec.sizeAfter (firstValues values n)) (values n)
    rw [growBy_sizeAfter, ← firstValues_succ] at hgrown
    omega

/-- **The least number of dice at which a pool is complete.** -/
theorem isLeast_finalSize :
    IsLeast {n | n = spec.sizeAfter (firstValues values n)} (finalSize spec values) := by
  refine ⟨(sizeAfter_finalSize spec values).symm, ?_⟩
  intro n hn
  refine Nat.not_lt.1 fun hlt => ?_
  have hmore := lt_sizeAfter_of_lt_finalSize spec values hlt
  rw [← show n = spec.sizeAfter (firstValues values n) from hn] at hmore
  exact Nat.lt_irrefl n hmore

theorem count_le_finalSize : spec.count ≤ finalSize spec values := by
  rw [← sizeAfter_finalSize]
  exact count_le_sizeAfter spec _

theorem finalSize_le : finalSize spec values ≤ maxPoolDice := by
  rw [← sizeAfter_finalSize]
  exact sizeAfter_le spec _

end Size

/-! ### Rolling -/

section Rolling

variable {die : Command Int} {spec : Spec} {values : Nat → Int}

/-- A die of a pool falls, and the rest of the pool after it. -/
theorem rollFrom_of_lt {threshold total done : Nat} (bound : total ≤ maxPoolDice)
    (h : done < total) (supply : Dice.Supply) :
    rollFrom die threshold total done bound supply =
      match die supply with
      | (.ok value, supply') =>
        match rollFrom die threshold (growBy threshold total value) (done + 1)
            (by unfold growBy; split <;> omega) supply' with
        | (.ok rest, supply'') => (.ok (value :: rest), supply'')
        | (.error e, supply'') => (.error e, supply'')
      | (.error e, supply') => (.error e, supply') := by
  rw [rollFrom, if_pos h, Command.bind_apply]
  rcases die supply with ⟨e | value, supply'⟩
  · rfl
  · simp only [Command.bind_apply, Command.pure_apply]
    rcases rollFrom die threshold (growBy threshold total value) (done + 1) _ supply' with
      ⟨e | rest, supply''⟩
    · rfl
    · rfl

/-- The dice that a command gives show the values from the `done`-th on, so many of them. -/
def Shows (die : Command Int) (supply : Dice.Supply) (values : Nat → Int) (done steps : Nat) :
    Prop :=
  ∀ k < steps, (die (die.supplyAfter k supply)).1 = .ok (values (done + k))

theorem Shows.head {supply : Dice.Supply} {done steps : Nat}
    (h : Shows die supply values done (steps + 1)) : (die supply).1 = .ok (values done) :=
  h 0 (Nat.succ_pos steps)

theorem Shows.tail {supply : Dice.Supply} {done steps : Nat}
    (h : Shows die supply values done (steps + 1)) :
    Shows die (die supply).2 values (done + 1) steps := by
  intro k hk
  have hnext := h (k + 1) (Nat.succ_lt_succ hk)
  rw [Nat.add_assoc, Nat.add_comm 1 k]
  exact hnext

theorem rollFrom_congr {threshold total total' done : Nat} (h : total = total')
    (bound : total ≤ maxPoolDice) :
    rollFrom die threshold total done bound = rollFrom die threshold total' done (h ▸ bound) := by
  subst h
  rfl

/-- One die more of a pool of which the first values have fallen. -/
theorem rollFrom_sizeAfter {done : Nat} (h : done < finalSize spec values) {supply : Dice.Supply}
    (hdie : (die supply).1 = .ok (values done)) :
    rollFrom die spec.threshold (spec.sizeAfter (firstValues values done)) done
        (sizeAfter_le spec _) supply =
      match rollFrom die spec.threshold (spec.sizeAfter (firstValues values (done + 1))) (done + 1)
          (sizeAfter_le spec _) (die supply).2 with
      | (.ok rest, supply') => (.ok (values done :: rest), supply')
      | (.error e, supply') => (.error e, supply') := by
  have hgrown : growBy spec.threshold (spec.sizeAfter (firstValues values done)) (values done) =
      spec.sizeAfter (firstValues values (done + 1)) := by
    rw [growBy_sizeAfter, firstValues_succ]
  rw [rollFrom_of_lt _ (lt_sizeAfter_of_lt_finalSize spec values h)]
  rcases hfall : die supply with ⟨e | value, supply'⟩
  · rw [hfall] at hdie
    cases hdie
  · rw [hfall] at hdie
    obtain rfl := Except.ok.inj hdie
    simp only [rollFrom_congr hgrown]

/-- **The rest of a pool is rolled up to its final size**, if its dice show the values. -/
theorem rollFrom_eq_ok {steps done : Nat} (hsize : done + steps = finalSize spec values)
    {supply : Dice.Supply} (hshows : Shows die supply values done steps) :
    rollFrom die spec.threshold (spec.sizeAfter (firstValues values done)) done
        (sizeAfter_le spec _) supply =
      (.ok ((List.range' done steps).map values), die.supplyAfter steps supply) := by
  induction steps generalizing done supply with
  | zero =>
    have hfull : spec.sizeAfter (firstValues values done) = done := by
      rw [show done = finalSize spec values from hsize]
      exact sizeAfter_finalSize spec values
    rw [rollFrom_of_le die _ (Nat.le_of_eq hfull)]
    rfl
  | succ steps ih =>
    have hrest := ih (by omega) hshows.tail
    rw [rollFrom_sizeAfter (by omega) hshows.head, hrest, List.range'_succ, List.map_cons,
      Dice.Throwing.supplyAfter_succ]

/-- **A die that fails ends the pool**, unless the pool is complete before it. -/
theorem rollFrom_eq_error {steps done : Nat} (hsize : done + steps < finalSize spec values)
    {supply : Dice.Supply} (hshows : Shows die supply values done steps) {e : Error}
    (hfail : (die (die.supplyAfter steps supply)).1 = .error e) :
    rollFrom die spec.threshold (spec.sizeAfter (firstValues values done)) done
        (sizeAfter_le spec _) supply =
      (.error e, die.supplyAfter (steps + 1) supply) := by
  induction steps generalizing done supply with
  | zero =>
    have hfall : die supply = (.error e, (die supply).2) := Prod.ext hfail rfl
    have hlt := lt_sizeAfter_of_lt_finalSize spec values hsize
    rw [Nat.add_zero] at hlt
    rw [rollFrom_of_lt _ hlt, hfall]
    rfl
  | succ steps ih =>
    have hrest := ih (by omega) hshows.tail hfail
    rw [rollFrom_sizeAfter (by omega) hshows.head, hrest]
    rfl

end Rolling

/-! ### Outcomes -/

theorem markOf_eq_explode_iff {threshold : Nat} {value : Int} :
    markOf threshold value = .explode ↔ (threshold : Int) ≤ value := by
  unfold markOf
  split
  · next h => simp [h]
  · next h =>
    split
    · simp [h]
    · split <;> simp [h]

/-- The dice that explode are those that reach the threshold. -/
theorem count_explode_marks (o : Outcome) :
    o.marks.count .explode =
      o.draws.countP fun v => decide ((o.spec.threshold : Int) ≤ v) := by
  rw [Outcome.marks, List.count, List.countP_map]
  refine List.countP_congr fun v _ => ?_
  simp [markOf_eq_explode_iff]

/-- The dice that were added are those that exploded, as far as there was room for them. -/
theorem exploded_of_complete {o : Outcome} (h : o.draws.length = o.spec.sizeAfter o.draws) :
    o.exploded = min ((maxPoolDice : Int) - o.spec.count) (o.marks.count .explode) := by
  have hbounds := o.spec.count_bounds
  rw [count_explode_marks, Outcome.exploded, h, Spec.sizeAfter]
  omega

/-- The pool whose dice, so many as it then has, show the first values. -/
def completed (spec : Spec) (values : Nat → Int) : Outcome where
  spec := spec
  draws := firstValues values (finalSize spec values)
  successes := (firstValues values (finalSize spec values)).countP
    fun v => decide ((successFrom : Int) ≤ v)

theorem length_draws_completed (spec : Spec) (values : Nat → Int) :
    (completed spec values).draws.length = finalSize spec values :=
  length_firstValues values _

section Pools

variable (source : Dice.Source) (spec : Spec)

theorem sizeAfter_nil : spec.sizeAfter [] = spec.count := by
  have hbounds := spec.count_bounds
  simp only [Spec.sizeAfter, List.countP_nil]
  omega

theorem rollPool_apply (supply : Dice.Supply) :
    rollPool source spec supply =
      match rollFrom (poolDie source) spec.threshold spec.count 0 spec.count_bounds.2 supply with
      | (.ok draws, supply') =>
        (.ok ⟨spec, draws, draws.countP fun v => decide ((successFrom : Int) ≤ v)⟩, supply')
      | (.error e, supply') => (.error e, supply') := by
  rw [rollPool, Command.bind_apply]
  rcases rollFrom (poolDie source) spec.threshold spec.count 0 spec.count_bounds.2 supply with
    ⟨e | draws, supply'⟩
  · rfl
  · rfl

/-- No die has fallen when a pool starts. -/
theorem rollFrom_start (die : Command Int) (values : Nat → Int) :
    rollFrom die spec.threshold spec.count 0 spec.count_bounds.2 =
      rollFrom die spec.threshold (spec.sizeAfter (firstValues values 0)) 0
        (sizeAfter_le spec _) :=
  rollFrom_congr (sizeAfter_nil spec).symm _

/-- The first dice with ten faces that a source rolls, so many of them, show the values. -/
def FirstShow (source : Dice.Source) (supply : Dice.Supply) (values : Nat → Int) (n : Nat) : Prop :=
  ∀ k < n, ∃ r, (source.roll "1d10" 10 ((source.roll "1d10" 10).supplyAfter k supply)).1 = .ok r ∧
    r.total = values k

variable {source spec} {supply : Dice.Supply} {values : Nat → Int}

/-- The dice of a pool are dice with ten faces. -/
theorem supplyAfter_poolDie (n : Nat) (supply : Dice.Supply) :
    (poolDie source).supplyAfter n supply = (source.roll "1d10" 10).supplyAfter n supply := by
  induction n generalizing supply with
  | zero => rfl
  | succ n ih =>
    rw [Dice.Throwing.supplyAfter_succ, ih, poolDie_apply]
    rfl

theorem FirstShow.shows {n : Nat} (h : FirstShow source supply values n) :
    Shows (poolDie source) supply values 0 n := by
  intro k hk
  obtain ⟨r, hroll, hvalue⟩ := h k hk
  rw [supplyAfter_poolDie, poolDie_apply, hroll, Nat.zero_add, ← hvalue]

theorem rollPool_eq_ok (hshow : FirstShow source supply values (finalSize spec values)) :
    rollPool source spec supply =
      (.ok (completed spec values),
        (source.roll "1d10" 10).supplyAfter (finalSize spec values) supply) := by
  rw [rollPool_apply, rollFrom_start spec _ values, rollFrom_eq_ok (Nat.zero_add _) hshow.shows,
    ← List.range_eq_range', supplyAfter_poolDie]
  rfl

theorem rollPool_eq_error {k : Nat} (hk : k < finalSize spec values)
    (hshow : FirstShow source supply values k) {f : Dice.Fault}
    (hfail : (source.roll "1d10" 10 ((source.roll "1d10" 10).supplyAfter k supply)).1 = .error f) :
    rollPool source spec supply =
      (.error (.dice f), (source.roll "1d10" 10).supplyAfter (k + 1) supply) := by
  have hlt : 0 + k < finalSize spec values := by omega
  have hdie : (poolDie source ((poolDie source).supplyAfter k supply)).1 = .error (.dice f) := by
    rw [supplyAfter_poolDie, poolDie_apply, hfail]
  rw [rollPool_apply, rollFrom_start spec _ values, rollFrom_eq_error hlt hshow.shows hdie,
    supplyAfter_poolDie]

end Pools

/-! ### The usual dice -/

/-- A die of the evaluator shows the next number. -/
theorem roll_evaluator (supply : Dice.Supply) :
    ∃ r, Dice.Source.evaluator.roll "1d10" 10 supply =
        (.ok r, { supply with drawn := supply.drawn + 1 }) ∧
      r.total = Dice.Supply.face 10 (supply.value supply.drawn) :=
  ⟨_, rfl, rfl⟩

theorem supplyAfter_evaluator (n : Nat) (supply : Dice.Supply) :
    (Dice.Source.evaluator.roll "1d10" 10).supplyAfter n supply =
      { supply with drawn := supply.drawn + n } := by
  induction n generalizing supply with
  | zero => rfl
  | succ n ih =>
    obtain ⟨r, hroll, -⟩ := roll_evaluator supply
    rw [Dice.Throwing.supplyAfter_succ, hroll, ih]
    simp only [Nat.add_assoc, Nat.add_comm 1 n]

theorem firstShow_evaluator (supply : Dice.Supply) (n : Nat) :
    FirstShow .evaluator supply
      (fun k => Dice.Supply.face 10 (supply.value (supply.drawn + k))) n := by
  intro k _
  obtain ⟨r, hroll, htotal⟩ :=
    roll_evaluator ((Dice.Source.evaluator.roll "1d10" 10).supplyAfter k supply)
  refine ⟨r, congrArg Prod.fst hroll, ?_⟩
  rw [htotal, supplyAfter_evaluator]

/-! ### Rolled pools -/

/-- **A pool is rolled up to the least number of dice at which it is complete.**  If that many dice
with ten faces show the given values, these are the draws, in order; the dice that were added are
those that exploded, as far as there was room for them.  If a die before that fails, so does the
pool, with the same fault. -/
theorem rollPool_least (source : Dice.Source) (spec : Spec) (supply : Dice.Supply)
    (values : Nat → Int) :
    ∃ size, IsLeast {n | n = spec.sizeAfter (firstValues values n)} size ∧
      spec.count ≤ size ∧ size ≤ maxPoolDice ∧
      (FirstShow source supply values size →
        ∃ o, rollPool source spec supply =
            (.ok o, (source.roll "1d10" 10).supplyAfter size supply) ∧
          o.spec = spec ∧ o.draws = firstValues values size ∧ o.marks.length = size ∧
          o.exploded = min ((maxPoolDice : Int) - spec.count) (o.marks.count .explode) ∧
          o.successes = o.draws.countP fun v => decide (8 ≤ v)) ∧
      ∀ k f, k < size → FirstShow source supply values k →
        (source.roll "1d10" 10 ((source.roll "1d10" 10).supplyAfter k supply)).1 = .error f →
          rollPool source spec supply =
            (.error (.dice f), (source.roll "1d10" 10).supplyAfter (k + 1) supply) := by
  refine ⟨finalSize spec values, isLeast_finalSize spec values, count_le_finalSize spec values,
    finalSize_le spec values, ?_, fun k f hk hshow hfail => rollPool_eq_error hk hshow hfail⟩
  intro hshow
  refine ⟨completed spec values, rollPool_eq_ok hshow, rfl, rfl, ?_, exploded_of_complete ?_, rfl⟩
  · rw [Outcome.marks, List.length_map, length_draws_completed]
  · rw [length_draws_completed]
    exact (sizeAfter_finalSize spec values).symm

/-- A source that rolls until a number has been taken, and is then out of order. -/
def onceOnly : Dice.Source where
  roll expression usual supply :=
    if supply.drawn = 0 then Dice.Source.evaluator.roll expression usual supply
    else Dice.Source.offline.roll expression usual supply
  largest := Dice.Source.evaluator.largest

/-- A pool of two dice, of which the first explodes.  If the source is out of order from the second
die on, the pool fails. -/
theorem rollPool_least_exploding :
    (∃ o, rollPool .evaluator ⟨2, 9, by decide, by decide⟩ (.ofList [9, 3, 8]) =
        (.ok o, { Dice.Supply.ofList [9, 3, 8] with drawn := 3 }) ∧
      o.draws = [9, 3, 8] ∧ o.exploded = 1 ∧ o.successes = 2) ∧
      rollPool onceOnly ⟨2, 9, by decide, by decide⟩ (.ofList [9]) =
        (.error (.dice (.offline "1d10")), { Dice.Supply.ofList [9] with drawn := 1 }) := by
  constructor
  · obtain ⟨size, hleast, hcount, -, hrolled, -⟩ := rollPool_least .evaluator
      ⟨2, 9, by decide, by decide⟩ (.ofList [9, 3, 8])
      fun k => Dice.Supply.face 10 ((Dice.Supply.ofList [9, 3, 8]).value (0 + k))
    have htwo : size ≠ 2 := by
      rintro rfl
      exact absurd hleast.1 (by decide)
    have hle : size ≤ 3 := hleast.2 (by decide)
    obtain rfl : size = 3 := by
      have hge : 2 ≤ size := hcount
      omega
    obtain ⟨o, hroll, hspec, hdraws, -, hexploded, hsuccesses⟩ :=
      hrolled (firstShow_evaluator (.ofList [9, 3, 8]) 3)
    rw [supplyAfter_evaluator] at hroll
    rw [Outcome.marks, hspec, hdraws] at hexploded
    rw [hdraws] at hsuccesses
    exact ⟨o, hroll, hdraws.trans (by decide), hexploded.trans (by decide),
      hsuccesses.trans (by decide)⟩
  · obtain ⟨size, -, hcount, -, -, hfailed⟩ := rollPool_least onceOnly
      ⟨2, 9, by decide, by decide⟩ (.ofList [9]) fun _ => 9
    have hone : 1 < size := hcount
    refine hfailed 1 _ hone ?_ rfl
    intro k hk
    obtain rfl : k = 0 := by omega
    exact ⟨_, rfl, rfl⟩

/-- **With the usual dice a pool is always rolled**, to numbers that are on its dice. -/
theorem rollPool_evaluator (spec : Spec) (supply : Dice.Supply) :
    ∃ o, rollPool .evaluator spec supply =
        (.ok o, { supply with drawn := supply.drawn + o.draws.length }) ∧
      ∀ v ∈ o.draws, 1 ≤ v ∧ v ≤ poolFaces := by
  refine ⟨completed spec fun k => Dice.Supply.face 10 (supply.value (supply.drawn + k)), ?_, ?_⟩
  · rw [length_draws_completed, ← supplyAfter_evaluator]
    exact rollPool_eq_ok (firstShow_evaluator supply _)
  · intro v hv
    obtain ⟨k, -, rfl⟩ := List.mem_map.1 hv
    have hlow := Dice.Supply.one_le_face 10 (supply.value (supply.drawn + k))
    have hhigh : Dice.Supply.face 10 (supply.value (supply.drawn + k)) ≤ 10 :=
      Dice.Supply.face_le (by decide) _
    exact ⟨by omega, Int.ofNat_le.2 hhigh⟩

end Pool

end Tabletop
