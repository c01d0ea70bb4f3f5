import Tabletop.Proofs.Dice.Roll

/-!
# Sums of terms

A sum of terms has numbers and dice with signs between them, and nothing else.  Few things can go
wrong with it: the dice of a term are too many or too large, or there are none of them, or the total
of some first terms is too large.

## Main definitions

* `Tree.isTerm`, `Tree.isSumOfTerms` — terms, and the sums of them.
* `Tree.terms`, `Tree.partialSums` — the terms of a sum, and the sums of its first terms.
* `Tree.TermFault`, `Tree.Oversteps` — what is wrong with a term, and with a sum.

## Main results

* `Tree.oversteps_of_eval` — **a sum of terms is evaluated, unless it oversteps a limit**.
* `oversteps_of_roll` — the same for the text of a sum.
-/

namespace Tabletop.Dice

namespace Tree

/-- A number, or dice with a number of faces. -/
def isTerm : Tree → Bool
  | number _ => true
  | dice _ (some _) => true
  | _ => false

/-- Terms with signs between them. -/
def isSumOfTerms : Tree → Bool
  | sum l _ r => l.isSumOfTerms && r.isTerm
  | t => t.isTerm

/-- The terms of a sum, from left to right. -/
def terms : Tree → List Tree
  | sum l _ r => l.terms ++ [r]
  | t => [t]

/-- The sum of the first two terms, that of the first three, and so on to the whole sum. -/
def partialSums : Tree → List Tree
  | sum l s r => l.partialSums ++ [sum l s r]
  | _ => []

/-- A term has dice that may not be rolled: none or too many of them, or with no faces or too many
faces. -/
inductive TermFault : Tree → Fault → Prop
  /-- The count is out of bounds. -/
  | count {n : Nat} {faces : Option Nat} (h : n = 0 ∨ maxDice < n) :
    TermFault (dice (some n) faces) (.diceCount n)
  /-- The number of faces is out of bounds. -/
  | faces {count : Option Nat} {n : Nat} (h : n = 0 ∨ maxFaces < n) :
    TermFault (dice count (some n)) (.dieFaces n)

/-- A sum of terms oversteps a limit, the first of its dice having a given number. -/
inductive Oversteps (usual : Int) (numbers : Nat → Int) (first : Nat) (t : Tree) : Fault → Prop
  /-- A term has dice that may not be rolled. -/
  | term {r : Tree} {f : Fault} (hr : r ∈ t.terms) (h : r.TermFault f) :
    Oversteps usual numbers first t f
  /-- The sum of some first terms is too large. -/
  | total {p : Tree} (hp : p ∈ t.partialSums)
      (h : maxTotal < (p.value usual numbers first).natAbs) :
    Oversteps usual numbers first t .totalTooLarge

theorem isSumOfTerms_of_isTerm {t : Tree} (h : t.isTerm = true) : t.isSumOfTerms = true := by
  cases t with
  | sum => cases h
  | number | dice | signed | group | product | fault | stopped => exact h

theorem nesting_of_isTerm {t : Tree} (h : t.isTerm = true) : t.nesting = 0 := by
  cases t with
  | number | dice => rfl
  | signed | group | sum | product | fault | stopped => cases h

theorem nesting_of_isSumOfTerms {t : Tree} (h : t.isSumOfTerms = true) : t.nesting = 0 := by
  induction t with
  | sum l s r ihl ihr =>
    rw [isSumOfTerms, Bool.and_eq_true] at h
    rw [nesting, ihl h.1, nesting_of_isTerm h.2, Nat.max_self]
  | number | dice | signed | group | product | fault | stopped => exact nesting_of_isTerm h

variable {usual : Int} {sense : Sense} {s s' : Supply} {f : Fault}

theorem termFault_of_eval {fall : Fall} {t : Tree} (ht : t.isTerm = true)
    (h : t.eval fall usual sense s = (.error f, s')) : t.TermFault f := by
  cases t with
  | number ds => cases h
  | dice count faces =>
    obtain ⟨m, rfl⟩ : ∃ m, faces = some m := by
      cases faces with
      | none => cases ht
      | some m => exact ⟨m, rfl⟩
    obtain ⟨hcount, rfl⟩ | ⟨hfaces, rfl⟩ := diceTerm_eq_error (eval_dice_eq_error h)
    · cases count with
      | none => exact absurd (by decide) hcount
      | some n =>
        rw [Option.getD_some] at hcount ⊢
        exact .count (by omega)
    · rw [facesOr_some] at hfaces ⊢
      exact .faces (by omega)
  | signed | group | sum | product | fault | stopped => cases ht

/-- **A sum of terms is evaluated, unless it oversteps a limit.** -/
theorem oversteps_of_eval {t : Tree} (ht : t.isSumOfTerms = true)
    (h : t.eval rolled usual sense s = (.error f, s')) :
    t.Oversteps usual s.value s.drawn f := by
  induction t generalizing sense s s' with
  | sum l sign r ihl ihr =>
    rw [isSumOfTerms, Bool.and_eq_true] at ht
    rw [eval_sum_eq_joined] at h
    rcases joined_eq_error h with hevall | ⟨a, s₁, hevall, hevalr | ⟨b, hevalr, hjoin⟩⟩
    · cases ihl ht.1 hevall with
      | term hterm hfault => exact .term (List.mem_append_left _ hterm) hfault
      | total hpartial hlarge => exact .total (List.mem_append_left _ hpartial) hlarge
    · exact .term (List.mem_append_right _ (List.mem_singleton_self r))
        (termFault_of_eval ht.2 hevalr)
    · obtain ⟨hlarge, rfl⟩ := bounded_eq_error hjoin
      obtain ⟨-, htotall, rfl⟩ := inBounds_of_eval hevall
      obtain ⟨-, htotalr, -⟩ := inBounds_of_eval hevalr
      rw [htotall, htotalr] at hlarge
      exact .total (List.mem_append_right _ (List.mem_singleton_self _)) hlarge
  | number | dice | signed | group | product | fault | stopped =>
    exact .term (List.mem_singleton_self _) (termFault_of_eval ht h)

end Tree

/-- The text of a sum of terms is rolled, unless the sum oversteps a limit. -/
theorem oversteps_of_roll {expression : String} {usual : Int} {supply supply' : Supply} {t : Tree}
    {f : Fault} (hparse : parseText expression = .ok t) (ht : t.isSumOfTerms = true)
    (h : roll expression usual supply = (.error f, supply')) :
    t.Oversteps usual supply.value supply.drawn f := by
  unfold parseText at hparse
  rcases htokens : tokens expression with e | ts
  · rw [htokens] at hparse
    cases hparse
  rw [htokens] at hparse
  obtain rfl : parse ts = t := Except.ok.inj hparse
  rcases heval : (parse ts).eval rolled usual .same supply with ⟨e | out, supply₁⟩
  · rw [roll_of_eval_error expression usual supply htokens heval] at h
    cases h
    exact Tree.oversteps_of_eval ht heval
  · obtain ⟨detail, hroll⟩ := roll_of_eval_ok expression usual supply htokens heval
    rw [hroll] at h
    cases h

end Tabletop.Dice
