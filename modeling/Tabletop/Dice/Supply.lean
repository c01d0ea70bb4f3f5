/-!
# The supply of dice

Dice are read from an endless sequence of integers, one number for each die.  The supply remembers
how many have been taken, also when what the dice were rolled for fails afterwards.

## Main definitions

* `Supply` — the sequence and the number of dice taken from it.
* `Supply.face` — what a die shows for a number of the sequence.
* `Supply.draw`, `throwDice` — the next die, and several dice one after another.
* `Supply.ofList` — the supply that repeats a list of numbers for ever.
-/

namespace Tabletop.Dice

/-- An endless sequence of numbers, of which some have been taken. -/
structure Supply where
  /-- The numbers, counted from zero. -/
  value : Nat → Int
  /-- How many have been taken. -/
  drawn : Nat

namespace Supply

/-- What a die with so many faces shows for a number: the number itself if it is on the die. -/
def face (faces : Nat) (v : Int) : Nat := 1 + ((v - 1) % faces).toNat

/-- Takes the next number and reads it as a die with so many faces. -/
def draw (faces : Nat) : StateM Supply Nat := fun s =>
  (face faces (s.value s.drawn), { s with drawn := s.drawn + 1 })

/-- The supply that repeats the numbers for ever; without numbers every die shows a one. -/
def ofList (numbers : List Int) : Supply where
  value k := (numbers[k % numbers.length]?).getD 1
  drawn := 0

/-- No die shows less than a one. -/
theorem one_le_face (faces : Nat) (v : Int) : 1 ≤ face faces v := by
  unfold face
  omega

/-- No die shows more than its number of faces. -/
theorem face_le {faces : Nat} (h : 0 < faces) (v : Int) : face faces v ≤ faces := by
  have h1 : (v - 1) % (faces : Int) < faces := Int.emod_lt_of_pos _ (by omega)
  have h2 : 0 ≤ (v - 1) % (faces : Int) := Int.emod_nonneg _ (by omega)
  unfold face
  omega

/-- A die takes one number. -/
@[simp] theorem draw_apply (faces : Nat) (s : Supply) :
    draw faces s = (face faces (s.value s.drawn), { s with drawn := s.drawn + 1 }) := rfl

end Supply

/-- Throws a die so many times, in order. -/
def throwDice (die : StateM Supply Nat) : Nat → StateM Supply (List Nat)
  | 0 => pure []
  | n + 1 => do
      let v ← die
      let vs ← throwDice die n
      pure (v :: vs)

/-- No die takes nothing. -/
@[simp] theorem throwDice_zero (die : StateM Supply Nat) (s : Supply) :
    throwDice die 0 s = ([], s) := rfl

/-- The first die is thrown before the others. -/
@[simp] theorem throwDice_succ (die : StateM Supply Nat) (n : Nat) (s : Supply) :
    throwDice die (n + 1) s =
      ((die s).1 :: (throwDice die n (die s).2).1, (throwDice die n (die s).2).2) := rfl

/-- There are as many results as dice. -/
theorem length_throwDice (die : StateM Supply Nat) (n : Nat) (s : Supply) :
    (throwDice die n s).1.length = n := by
  induction n generalizing s with
  | zero => rfl
  | succ n ih => rw [throwDice_succ, List.length_cons, ih]

/-- As many numbers are taken as there are dice. -/
theorem throwDice_draw_snd (faces n : Nat) (s : Supply) :
    (throwDice (Supply.draw faces) n s).2 = { s with drawn := s.drawn + n } := by
  induction n generalizing s with
  | zero => rfl
  | succ n ih =>
    rw [throwDice_succ, ih]
    simp only [Supply.draw_apply, Nat.add_assoc, Nat.add_comm 1 n]

end Tabletop.Dice
