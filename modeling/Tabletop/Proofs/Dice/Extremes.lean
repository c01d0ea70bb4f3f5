import Mathlib.Algebra.BigOperators.Group.List.Basic
import Mathlib.Order.Bounds.Basic
import Tabletop.Proofs.Dice.Roll

/-!
# The largest total of an expression

The largest total is found by one evaluation, in which every die shows the face that its place asks
for: all its faces where a larger number makes the total larger, and a one where it makes the total
smaller.  If a supply of dice shows these very faces, the expression is rolled to the same total.

## Main definitions

* `Sense.pick`, `Tree.extremes` — the face that a place asks for, and those of a whole tree.
* `Sense.Le` — the order of numbers as a place sees it.
* `Tree.isAdditive` — a tree without products and quotients.
* `totals` — the totals to which an expression can be rolled.

## Main results

* `Tree.eval_highest_fst` — **dice that show the extremes are read as in the search.**
* `Tree.value_of_extremes`, `Tree.exists_value_of_eval` — what is found as the largest total is a
  value of the tree.
* `exists_roll_eq_largest?`, `mem_totals` — the same for the text of an expression.
* `largest?_eq_ok_of_roll` — an expression that can be rolled always has a largest total.
-/

namespace Tabletop.Dice

/-! ### The faces that a place asks for -/

/-- The face of a die that makes the total largest at a place of this sense. -/
def Sense.pick (sense : Sense) (faces : Nat) : Nat :=
  match sense with
  | same => faces
  | opposite => 1

theorem highest_apply (sense : Sense) (faces : Nat) (s : Supply) :
    highest sense faces s = (sense.pick faces, s) := by
  cases sense with
  | same => rfl
  | opposite => rfl

theorem throwDice_highest (sense : Sense) (faces n : Nat) (s : Supply) :
    throwDice (highest sense faces) n s = (List.replicate n (sense.pick faces), s) := by
  induction n with
  | zero => rfl
  | succ n ih => rw [throwDice_succ, highest_apply, ih, List.replicate_succ]

theorem face_pick {faces : Nat} (h : 1 ≤ faces) (sense : Sense) :
    Supply.face faces (sense.pick faces) = sense.pick faces := by
  have hface : 1 ≤ sense.pick faces ∧ sense.pick faces ≤ faces := by
    cases sense with
    | same => exact ⟨h, Nat.le_refl _⟩
    | opposite => exact ⟨Nat.le_refl _, h⟩
  have hrest : ((sense.pick faces : Int) - 1) % faces = sense.pick faces - 1 :=
    Int.emod_eq_of_lt (by omega) (by omega)
  rw [Supply.face, hrest]
  omega

/-- What dice show is read off the numbers of the supply that are theirs. -/
theorem shown_eq_map (faces : Nat) (numbers : Nat → Int) (first count : Nat) :
    shown faces numbers first count =
      ((List.range' first count).map numbers).map (Supply.face faces) := by
  rw [shown, List.range'_eq_map_range, List.map_map, List.map_map]
  rfl

/-- A supply that repeats a list shows the list first. -/
theorem Supply.map_value_ofList (numbers : List Int) :
    (List.range' 0 numbers.length).map (Supply.ofList numbers).value = numbers := by
  refine List.ext_getElem (by simp) fun i h₁ h₂ => ?_
  simp [Supply.ofList, Nat.mod_eq_of_lt h₂, List.getElem?_eq_getElem h₂]

/-! ### The dice of a tree -/

/-- The order of numbers as a place sees it: the second makes the total as large as the first. -/
def Sense.Le : Sense → Int → Int → Prop
  | same, a, b => a ≤ b
  | opposite, a, b => b ≤ a

theorem Sense.le_apply {sense : Sense} {sign : Sign} {a b : Int}
    (h : (sense.behind sign).Le a b) : sense.Le (sign.apply a) (sign.apply b) := by
  cases sign with
  | plus => exact h
  | minus =>
    cases sense with
    | same => exact Int.neg_le_neg h
    | opposite => exact Int.neg_le_neg h

theorem Sense.le_add {sense : Sense} {a b c d : Int} (hl : sense.Le a b) (hr : sense.Le c d) :
    sense.Le (a + c) (b + d) := by
  cases sense with
  | same => exact Int.add_le_add hl hr
  | opposite => exact Int.add_le_add hl hr

theorem le_sum_shown (faces : Nat) (numbers : Nat → Int) (first count : Nat) :
    count ≤ (shown faces numbers first count).sum := by
  have hone : ∀ v ∈ shown faces numbers first count, 1 ≤ v := by
    intro v hv
    obtain ⟨i, -, rfl⟩ := List.mem_map.1 hv
    exact Supply.one_le_face _ _
  have hlength : (shown faces numbers first count).length = count := by
    rw [shown, List.length_map, List.length_range]
  have hsum := List.length_le_sum_of_one_le _ hone
  rwa [hlength] at hsum

/-- No dice serve a place better than those that show the face it asks for. -/
theorem Sense.le_sum_pick {faces : Nat} (h : 1 ≤ faces) (sense : Sense) (numbers : Nat → Int)
    (first count : Nat) :
    sense.Le (shown faces numbers first count).sum
      (List.replicate count (sense.pick faces)).sum := by
  rw [List.sum_replicate_nat]
  cases sense with
  | same => exact Int.ofNat_le.2 (sum_shown_le h numbers first count)
  | opposite =>
    have hlow := le_sum_shown faces numbers first count
    rw [pick, Nat.mul_one]
    exact Int.ofNat_le.2 hlow

namespace Tree

/-- The faces that the dice of a tree show when its total is largest, from left to right. -/
def extremes (usual : Int) : Sense → Tree → List Int
  | _, number _ => []
  | sense, dice count faces =>
    List.replicate (count.getD 1) (sense.pick (facesOr usual faces).toNat)
  | sense, signed s t => t.extremes usual (sense.behind s)
  | sense, group t => t.extremes usual sense
  | sense, sum l s r => l.extremes usual sense ++ r.extremes usual (sense.behind s)
  | sense, product l s r => l.extremes usual sense ++ r.extremes usual (sense.under s)
  | _, fault _ => []
  | sense, stopped t _ => t.extremes usual sense

@[simp] theorem length_extremes (usual : Int) (sense : Sense) (t : Tree) :
    (t.extremes usual sense).length = t.diceCount := by
  induction t generalizing sense with
  | number | fault => rfl
  | dice count faces => exact List.length_replicate
  | signed s t ih => exact ih (sense.behind s)
  | group t ih | stopped t _ ih => exact ih sense
  | sum l s r ihl ihr | product l s r ihl ihr =>
    rw [extremes, List.length_append, ihl, ihr, diceCount]

/-- The numbers of the supply, from the first die of the tree on, are the extremes of the tree. -/
def ShowsExtremes (usual : Int) (numbers : Nat → Int) (sense : Sense) (t : Tree) (first : Nat) :
    Prop :=
  (List.range' first t.diceCount).map numbers = t.extremes usual sense

theorem map_range'_append {numbers : Nat → Int} {first m n : Nat} {ms ns : List Int}
    (hm : ms.length = m) (h : (List.range' first (m + n)).map numbers = ms ++ ns) :
    (List.range' first m).map numbers = ms ∧ (List.range' (first + m) n).map numbers = ns := by
  rw [← List.range'_append_1, List.map_append] at h
  refine List.append_inj h ?_
  rw [List.length_map, List.length_range', hm]

theorem joined_snd {l r : Throwing Fault Reading} {join : Int → Int → Except Fault Int}
    {expansion : Tree → Tree → Tree} {s : Supply} (hl : (l s).2 = s) (hr : (r s).2 = s) :
    (joined l r join expansion s).2 = s := by
  unfold joined
  rcases hevall : l s with ⟨f | a, s₁⟩
  · rwa [hevall] at hl
  rw [hevall] at hl
  obtain rfl : s₁ = s := hl
  rcases hevalr : r s₁ with ⟨f | b, s₂⟩
  · simp only [hevalr]
    rwa [hevalr] at hr
  · simp only [hevalr]
    rwa [hevalr] at hr

/-- Two pairs of readings with the same results are joined to the same result. -/
theorem joined_fst {l r l' r' : Throwing Fault Reading} {join : Int → Int → Except Fault Int}
    {expansion : Tree → Tree → Tree} {s s' : Supply} (hl : (l s).1 = (l' s').1)
    (hr : ∀ a s₁ s₁', l s = (.ok a, s₁) → l' s' = (.ok a, s₁') → (r s₁).1 = (r' s₁').1) :
    (joined l r join expansion s).1 = (joined l' r' join expansion s').1 := by
  unfold joined
  rcases hevall : l s with ⟨f | a, s₁⟩
  · rcases hevall' : l' s' with ⟨a', s₁'⟩
    rw [hevall, hevall'] at hl
    obtain rfl : Except.error f = a' := hl
    rfl
  rcases hevall' : l' s' with ⟨a', s₁'⟩
  rw [hevall, hevall'] at hl
  obtain rfl : Except.ok a = a' := hl
  have hright := hr a s₁ s₁' hevall hevall'
  rcases hevalr : r s₁ with ⟨b, s₂⟩
  rcases hevalr' : r' s₁' with ⟨b', s₂'⟩
  rw [hevalr, hevalr'] at hright
  obtain rfl : b = b' := hright
  simp only [hevalr, hevalr']
  cases b with
  | error f => rfl
  | ok b => rfl

/-- **The search for the largest total takes no dice.** -/
theorem eval_highest_snd (usual : Int) (sense : Sense) (t : Tree) (s : Supply) :
    (t.eval highest usual sense s).2 = s := by
  induction t generalizing sense with
  | number | fault => rfl
  | dice count faces =>
    rw [eval_dice]
    rcases diceTerm usual count faces with f | ⟨n, m⟩
    · rfl
    · simp only [throwDice_highest]
  | signed sign t ih =>
    have hs := ih (sense.behind sign)
    rw [eval_signed]
    rcases heval : t.eval highest usual (sense.behind sign) s with ⟨f | a, s₁⟩
    · rwa [heval] at hs
    · rwa [heval] at hs
  | group t ih | stopped t _ ih =>
    have hs := ih sense
    simp only [eval_group, eval_stopped]
    rcases heval : t.eval highest usual sense s with ⟨f | a, s₁⟩
    · rwa [heval] at hs
    · rwa [heval] at hs
  | sum l sign r ihl ihr =>
    rw [eval_sum_eq_joined]
    exact joined_snd (ihl sense) (ihr (sense.behind sign))
  | product l scale r ihl ihr =>
    rw [eval_product_eq_joined]
    exact joined_snd (ihl sense) (ihr (sense.under scale))

/-! ### What a successful evaluation says -/

section Inversion

variable {fall : Fall} {usual : Int} {sense : Sense} {s s' : Supply} {out : Reading}

theorem eval_dice_highest_eq_ok {count faces : Option Nat}
    (h : (dice count faces).eval highest usual sense s = (.ok out, s')) :
    ((1 ≤ count.getD 1 ∧ count.getD 1 ≤ maxDice) ∧
        (1 ≤ facesOr usual faces ∧ facesOr usual faces ≤ maxFaces)) ∧
      out.total =
        (List.replicate (count.getD 1) (sense.pick (facesOr usual faces).toNat)).sum := by
  obtain ⟨hbounds, values, hthrow, rfl⟩ := eval_dice_eq_ok h
  rw [throwDice_highest] at hthrow
  obtain ⟨rfl, -⟩ := Prod.mk.inj hthrow
  exact ⟨hbounds, rfl⟩

end Inversion

section Extremes

variable {usual : Int} {numbers : Nat → Int}

/-- Dice that show the extremes of a term show the face that its place asks for. -/
theorem shown_of_extremes {count faces : Option Nat} {sense : Sense} {first : Nat}
    (hfaces : 1 ≤ (facesOr usual faces).toNat)
    (h : (dice count faces).ShowsExtremes usual numbers sense first) :
    shown (facesOr usual faces).toNat numbers first (count.getD 1) =
      List.replicate (count.getD 1) (sense.pick (facesOr usual faces).toNat) := by
  rw [ShowsExtremes, diceCount] at h
  rw [shown_eq_map, h, extremes, List.map_replicate, face_pick hfaces]

/-- **Dice that show the extremes of a tree are read as in the search for its largest total**, and
come upon the same faults. -/
theorem eval_highest_fst {t : Tree} {sense : Sense} {s : Supply}
    (h : t.ShowsExtremes usual s.value sense s.drawn) (s' : Supply) :
    (t.eval highest usual sense s').1 = (t.eval rolled usual sense s).1 := by
  induction t generalizing sense s s' with
  | number | fault => rfl
  | dice count faces =>
    rw [eval_dice, eval_dice]
    rcases hterm : diceTerm usual count faces with f | ⟨n, m⟩
    · rfl
    · obtain ⟨hbounds, rfl, rfl⟩ := diceTerm_eq_ok_iff.1 hterm
      have hshown := shown_of_extremes (by omega) h
      simp only [rolled, throwDice_highest, throwDice_draw_fst, hshown]
  | signed sign t ih =>
    have hsame : (t.eval highest usual (sense.behind sign) s').1 = _ := ih h s'
    rw [eval_signed, eval_signed]
    rcases hhighest : t.eval highest usual (sense.behind sign) s' with ⟨a, s₁⟩
    rcases hrolled : t.eval rolled usual (sense.behind sign) s with ⟨b, s₂⟩
    rw [hhighest, hrolled] at hsame
    obtain rfl : a = b := hsame
    rcases a with f | a
    · rfl
    · rfl
  | group t ih | stopped t _ ih =>
    have hsame : (t.eval highest usual sense s').1 = _ := ih h s'
    simp only [eval_group, eval_stopped]
    rcases hhighest : t.eval highest usual sense s' with ⟨a, s₁⟩
    rcases hrolled : t.eval rolled usual sense s with ⟨b, s₂⟩
    rw [hhighest, hrolled] at hsame
    obtain rfl : a = b := hsame
    rcases a with f | a
    · rfl
    · rfl
  | sum l sign r ihl ihr =>
    obtain ⟨hl, hr⟩ := map_range'_append (length_extremes usual sense l) h
    rw [eval_sum_eq_joined, eval_sum_eq_joined]
    apply joined_fst (ihl hl s')
    intro a s₁ s₁' _ hrolled
    -- The dice of the left side have been taken when the right side is read.
    obtain ⟨-, -, rfl⟩ := inBounds_of_eval hrolled
    exact ihr (s := { s with drawn := s.drawn + l.diceCount }) hr s₁
  | product l scale r ihl ihr =>
    obtain ⟨hl, hr⟩ := map_range'_append (length_extremes usual sense l) h
    rw [eval_product_eq_joined, eval_product_eq_joined]
    apply joined_fst (ihl hl s')
    intro a s₁ s₁' _ hrolled
    obtain ⟨-, -, rfl⟩ := inBounds_of_eval hrolled
    exact ihr (s := { s with drawn := s.drawn + l.diceCount }) hr s₁

/-- **Dice that show the extremes of a tree give it the total that was found as the largest**, and
keep it in bounds. -/
theorem value_of_extremes {t : Tree} {sense : Sense} {s s' : Supply} {out : Reading} {first : Nat}
    (h : t.eval highest usual sense s = (.ok out, s'))
    (hnumbers : t.ShowsExtremes usual numbers sense first) :
    t.InBounds usual numbers first ∧ t.value usual numbers first = out.total := by
  have hsame := eval_highest_fst (s := ⟨numbers, first⟩) hnumbers s
  rw [h] at hsame
  rcases hrolled : t.eval rolled usual sense ⟨numbers, first⟩ with ⟨r, s₁⟩
  rw [hrolled] at hsame
  obtain rfl : Except.ok out = r := hsame
  obtain ⟨hbounds, htotal, -⟩ := inBounds_of_eval hrolled
  exact ⟨hbounds, htotal.symm⟩

/-- A supply may show the extremes of a tree first. -/
theorem showsExtremes_ofList (usual : Int) (sense : Sense) (t : Tree) :
    t.ShowsExtremes usual (Supply.ofList (t.extremes usual sense)).value sense 0 := by
  rw [ShowsExtremes, ← length_extremes usual sense]
  exact Supply.map_value_ofList _

/-- What is found as the largest total of a tree is one of its values. -/
theorem exists_value_of_eval {t : Tree} {sense : Sense} {s s' : Supply} {out : Reading}
    (h : t.eval highest usual sense s = (.ok out, s')) :
    ∃ numbers, t.InBounds usual numbers 0 ∧ t.value usual numbers 0 = out.total :=
  ⟨_, value_of_extremes h (showsExtremes_ofList usual sense t)⟩

/-- There are no products and no quotients in the tree. -/
def isAdditive : Tree → Bool
  | number _ => true
  | dice _ _ => true
  | signed _ t => t.isAdditive
  | group t => t.isAdditive
  | sum l _ r => l.isAdditive && r.isAdditive
  | product _ _ _ => false
  | fault _ => true
  | stopped t _ => t.isAdditive

end Extremes

end Tree

/-! ### Expressions -/

theorem Derives.isAdditive {layer : Layer} {ts : List Token} {t : Tree} (h : Derives layer ts t)
    (hscale : ∀ s, .scale s ∉ ts) : t.isAdditive = true := by
  induction h with
  | number | dice => rfl
  | signed s h ih => exact ih fun s' hs' => hscale s' (List.mem_cons_of_mem _ hs')
  | group h ih =>
    exact ih fun s hs => hscale s (List.mem_cons_of_mem _ (List.mem_append_left _ hs))
  | factor h ih | term h ih => exact ih hscale
  | product s hl hr => exact absurd (List.mem_append_right _ List.mem_cons_self) (hscale s)
  | sum s hl hr ihl ihr =>
    rw [Tree.isAdditive, ihl fun s' hs' => hscale s' (List.mem_append_left _ hs'),
      ihr fun s' hs' => hscale s' (List.mem_append_right _ (List.mem_cons_of_mem _ hs'))]
    rfl

/-- An expression without scales is read as a tree that only adds and subtracts. -/
theorem isAdditive_parse {expression : String} {ts : List Token}
    (h : tokens expression = .ok ts) (hscale : ∀ s : Scale, s.symbol ∉ expression.toList)
    (hcomplete : (parse ts).isComplete = true) : (parse ts).isAdditive = true := by
  refine (derives_of_parse hcomplete).1.isAdditive fun s hs => hscale s ?_
  exact (spells_of_tokens h).1.mem_of_token hs (List.mem_singleton_self _)

/-- The totals to which an expression can be rolled, by any supply of dice. -/
def totals (expression : String) (usual : Int) : Set Int :=
  {n | ∃ supply r supply', roll expression usual supply = (.ok r, supply') ∧ r.total = n}

section Largest

variable {expression : String} {usual m : Int}

theorem eval_of_largest? (h : largest? expression usual = .ok m) :
    ∃ ts out s', tokens expression = .ok ts ∧
      (parse ts).eval highest usual .same ⟨fun _ => 1, 0⟩ = (.ok out, s') ∧ out.total = m := by
  rw [largest?, ExceptT.run, read_apply] at h
  rcases htokens : tokens expression with f | ts
  · simp only [htokens] at h
    cases h
  rcases heval : (parse ts).eval highest usual .same ⟨fun _ => 1, 0⟩ with ⟨f | out, s'⟩
  · simp only [htokens, heval] at h
    cases h
  · simp only [htokens, heval] at h
    cases h
    exact ⟨ts, out, s', rfl, heval, rfl⟩

/-- No dice are taken in search of the largest total, whatever the supply. -/
theorem read_highest_snd (expression : String) (usual : Int) (supply : Supply) :
    (read highest expression usual supply).2 = supply := by
  rw [read_apply]
  rcases tokens expression with f | ts
  · rfl
  have hsupply := Tree.eval_highest_snd usual .same (parse ts) supply
  rcases heval : (parse ts).eval highest usual .same supply with ⟨f | out, supply'⟩
  · simp only [heval]
    rwa [heval] at hsupply
  · simp only [heval]
    rwa [heval] at hsupply

/-- The largest total is known if it was found, unless it is the number that says it was not. -/
theorem largest?_of_largest (hm : m ≠ -1) (h : largest expression usual = m) :
    largest? expression usual = .ok m := by
  unfold largest at h
  rcases hfound : largest? expression usual with f | n
  · rw [hfound] at h
    exact absurd h.symm hm
  · rw [hfound] at h
    rw [← h]

/-- **Some dice are rolled to what is found as the largest total**, or come upon the same fault. -/
theorem exists_roll_eq_largest? (expression : String) (usual : Int) :
    ∃ supply, (roll expression usual supply).1.map Roll.total = largest? expression usual := by
  rcases htokens : tokens expression with f | ts
  · refine ⟨Supply.ofList [], ?_⟩
    rw [roll_of_tokens_error expression usual _ htokens, largest?, ExceptT.run, read_apply, htokens]
    rfl
  let supply := Supply.ofList ((parse ts).extremes usual .same)
  have hsame := Tree.eval_highest_fst (s := supply)
    (Tree.showsExtremes_ofList usual .same (parse ts)) ⟨fun _ => 1, 0⟩
  refine ⟨supply, ?_⟩
  rw [largest?, ExceptT.run, read_apply, htokens]
  rcases hhighest : (parse ts).eval highest usual .same ⟨fun _ => 1, 0⟩ with ⟨a, s₁⟩
  rcases hrolled : (parse ts).eval rolled usual .same supply with ⟨b, s₂⟩
  rw [hhighest, hrolled] at hsame
  obtain rfl : a = b := hsame
  rcases a with f | out
  · rw [roll_of_eval_error expression usual supply htokens hrolled]
    simp only [hhighest]
    rfl
  · obtain ⟨detail, hroll⟩ := roll_of_eval_ok expression usual supply htokens hrolled
    rw [hroll]
    simp only [hhighest]
    rfl

/-- Some dice give the total that was found as the largest. -/
theorem mem_totals (h : largest? expression usual = .ok m) : m ∈ totals expression usual := by
  obtain ⟨supply, hsupply⟩ := exists_roll_eq_largest? expression usual
  rw [h] at hsupply
  rcases hroll : roll expression usual supply with ⟨f | r, supply'⟩
  · rw [hroll] at hsupply
    cases hsupply
  · rw [hroll] at hsupply
    exact ⟨supply, r, supply', hroll, Except.ok.inj hsupply⟩

/-- **An expression that all dice can be rolled for has a largest total.** -/
theorem largest?_eq_ok_of_roll
    (h : ∀ supply, ∃ r supply', roll expression usual supply = (.ok r, supply')) :
    ∃ m, largest? expression usual = .ok m := by
  obtain ⟨supply, hsupply⟩ := exists_roll_eq_largest? expression usual
  obtain ⟨r, supply', hroll⟩ := h supply
  rw [hroll] at hsupply
  exact ⟨r.total, hsupply.symm⟩

end Largest

end Tabletop.Dice
