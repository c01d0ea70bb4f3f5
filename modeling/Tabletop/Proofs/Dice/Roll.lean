import Tabletop.Dice.Source
import Tabletop.Proofs.Dice.Value

/-!
# Rolling an expression

A roll reads the tokens of an expression, then their tree, and then evaluates the tree.  So it gives
the value of the tree if the expression has one, and a fault otherwise; and no dice are thrown for
an expression whose tokens cannot be read.

## Main definitions

* `Evaluates` — what an expression says, and that it keeps to all limits.
* `Tree.faults` — the faults in a tree.

## Main results

* `roll_correct` — **an expression is rolled to the value of its only tree, or not at all.**
* `natAbs_total_le` — no total is larger than a sum may be.
-/

namespace Tabletop.Dice

/-! ### Lexical faults -/

/-- The faults in a tree. -/
def Tree.faults : Tree → List Fault
  | number _ => []
  | dice _ _ => []
  | signed _ t => t.faults
  | group t => t.faults
  | sum l _ r => l.faults ++ r.faults
  | product l _ r => l.faults ++ r.faults
  | fault f => [f]
  | stopped t f => t.faults ++ [f]

/-- No fault of the tree is one of reading tokens. -/
def Tree.IsRead (t : Tree) : Prop := ∀ f ∈ t.faults, f.isLexical = false

theorem isRead_of_isMadeOf {ts : List Token} {t : Tree} (h : t.IsMadeOf ts) : t.IsRead := by
  induction t with
  | number | dice => exact List.forall_mem_nil _
  | signed _ t ih | group t ih => exact ih fun u hu => h u (List.mem_cons_of_mem _ hu)
  | sum l _ r ihl ihr | product l _ r ihl ihr =>
    have hl := ihl fun u hu => h u (List.mem_cons_of_mem _ (List.mem_append_left _ hu))
    have hr := ihr fun u hu => h u (List.mem_cons_of_mem _ (List.mem_append_right _ hu))
    exact fun f hf => (List.mem_append.1 hf).elim (hl f) (hr f)
  | fault f => exact List.forall_mem_singleton.2 (h _ List.mem_cons_self)
  | stopped t f ih =>
    have ht := ih fun u hu => h u (List.mem_cons_of_mem _ hu)
    refine fun f' hf' => (List.mem_append.1 hf').elim (ht f') fun hf' => ?_
    exact List.mem_singleton.1 hf' ▸ h _ List.mem_cons_self

/-- **Reading tokens as a tree finds other faults than reading a text as tokens.** -/
theorem isRead_parse (ts : List Token) : (parse ts).IsRead :=
  isRead_of_isMadeOf fun _ => comesFrom_of_mem_parts_parse

theorem isLexical_of_diceTerm {usual : Int} {count faces : Option Nat} {f : Fault}
    (h : diceTerm usual count faces = .error f) : f.isLexical = false := by
  obtain ⟨-, rfl⟩ | ⟨-, rfl⟩ := Tree.diceTerm_eq_error h
  · rfl
  · rfl

theorem isLexical_of_bounded {n : Int} {f : Fault} (h : bounded n = .error f) :
    f.isLexical = false := by
  obtain ⟨-, rfl⟩ := bounded_eq_error h
  rfl

theorem isLexical_of_join {s : Scale} {a b : Int} {f : Fault} (h : s.join a b = .error f) :
    f.isLexical = false := by
  cases s with
  | times => exact isLexical_of_bounded h
  | divide =>
    rw [Scale.join] at h
    split at h
    · cases h
      rfl
    · cases h

/-- Evaluation comes upon the faults of a tree, or finds faults that are not of reading tokens. -/
theorem isLexical_of_eval {usual : Int} {t : Tree} {sense : Sense} {s s' : Supply} {f : Fault}
    (ht : t.IsRead) (h : t.eval rolled usual sense s = (.error f, s')) : f.isLexical = false := by
  induction t generalizing sense s s' f with
  | number ds => cases h
  | dice count faces => exact isLexical_of_diceTerm (Tree.eval_dice_eq_error h)
  | signed sign t ih => exact ih ht (Tree.eval_signed_eq_error h)
  | group t ih => exact ih ht (Tree.eval_group_eq_error h)
  | sum l sign r ihl ihr =>
    have hl : l.IsRead := fun e he => ht e (List.mem_append_left _ he)
    have hr : r.IsRead := fun e he => ht e (List.mem_append_right _ he)
    rw [Tree.eval_sum_eq_joined] at h
    rcases Tree.joined_eq_error h with hevall | ⟨a, s₁, -, hevalr | ⟨b, -, hjoin⟩⟩
    · exact ihl hl hevall
    · exact ihr hr hevalr
    · exact isLexical_of_bounded hjoin
  | product l scale r ihl ihr =>
    have hl : l.IsRead := fun e he => ht e (List.mem_append_left _ he)
    have hr : r.IsRead := fun e he => ht e (List.mem_append_right _ he)
    rw [Tree.eval_product_eq_joined] at h
    rcases Tree.joined_eq_error h with hevall | ⟨a, s₁, -, hevalr | ⟨b, -, hjoin⟩⟩
    · exact ihl hl hevall
    · exact ihr hr hevalr
    · exact isLexical_of_join hjoin
  | fault e =>
    cases h
    exact ht e (List.mem_singleton_self e)
  | stopped t e ih =>
    have hleft : t.IsRead := fun e he => ht e (List.mem_append_left _ he)
    rw [Tree.eval_stopped] at h
    rcases heval : t.eval rolled usual sense s with ⟨e' | a, s₁⟩
    · rw [heval] at h
      cases h
      exact ih hleft heval
    · rw [heval] at h
      cases h
      exact ht e (List.mem_append_right _ (List.mem_singleton_self e))

/-! ### Rolls -/

/-- A text is read as a tree, and the tree is evaluated. -/
theorem read_apply (fall : Fall) (expression : String) (usual : Int) (supply : Supply) :
    read fall expression usual supply =
      match tokens expression with
      | .error f => (.error f, supply)
      | .ok ts =>
        match (parse ts).eval fall usual .same supply with
        | (.ok r, supply') => (.ok (parse ts, r), supply')
        | (.error f, supply') => (.error f, supply') := by
  rcases htokens : tokens expression with f | ts
  · simp only [read, parseText, htokens]
    rfl
  rcases heval : (parse ts).eval fall usual .same supply with ⟨f | r, supply'⟩
  · simp only [read, parseText, htokens, Except.map, bind, ExceptT.bind, ExceptT.mk, StateT.bind,
      ExceptT.bindCont, heval]
    rfl
  · simp only [read, parseText, htokens, Except.map, bind, ExceptT.bind, ExceptT.mk, StateT.bind,
      ExceptT.bindCont, heval]
    rfl

/-- A roll shows the shape, what the dice showed, and the total. -/
theorem roll_apply (expression : String) (usual : Int) (supply : Supply) :
    roll expression usual supply =
      match read rolled expression usual supply with
      | (.ok (t, r), supply') =>
        (.ok ⟨r.total, detail (t.settle usual).text r.expansion.text (Text.intText r.total)⟩,
          supply')
      | (.error f, supply') => (.error f, supply') := by
  rcases h : read rolled expression usual supply with ⟨f | ⟨t, r⟩, supply'⟩
  · simp only [roll, bind, ExceptT.bind, ExceptT.mk, StateT.bind, ExceptT.bindCont, h]
    rfl
  · simp only [roll, bind, ExceptT.bind, ExceptT.mk, StateT.bind, ExceptT.bindCont, h]
    rfl

section Roll

variable (expression : String) (usual : Int) (supply : Supply)

theorem roll_of_tokens_error {f : Fault} (h : tokens expression = .error f) :
    roll expression usual supply = (.error f, supply) := by
  simp only [roll_apply, read_apply, h]

theorem roll_of_eval_ok {ts : List Token} (h : tokens expression = .ok ts) {out : Reading}
    {supply' : Supply} (heval : (parse ts).eval rolled usual .same supply = (.ok out, supply')) :
    ∃ detail, roll expression usual supply = (.ok ⟨out.total, detail⟩, supply') := by
  refine ⟨detail ((parse ts).settle usual).text out.expansion.text (Text.intText out.total), ?_⟩
  simp only [roll_apply, read_apply, h, heval]

theorem roll_of_eval_error {ts : List Token} (h : tokens expression = .ok ts) {f : Fault}
    {supply' : Supply} (heval : (parse ts).eval rolled usual .same supply = (.error f, supply')) :
    roll expression usual supply = (.error f, supply') := by
  simp only [roll_apply, read_apply, h, heval]

/-- An expression is rolled to the value of the tree that is read from it, if the dice keep the tree
in bounds. -/
theorem roll_of_inBounds {ts : List Token} (h : tokens expression = .ok ts)
    (hbounds : (parse ts).InBounds usual supply.value supply.drawn) :
    ∃ detail, roll expression usual supply =
      (.ok ⟨(parse ts).value usual supply.value supply.drawn, detail⟩,
        { supply with drawn := supply.drawn + (parse ts).diceCount }) := by
  obtain ⟨expansion, heval⟩ := Tree.eval_of_inBounds .same supply hbounds
  exact roll_of_eval_ok expression usual supply h heval

/-- An expression writes tokens that the grammar gives a tree, and keeps to all limits: numerals
have at most nine digits, parentheses and signs are not nested too deeply, and the dice, divisors,
sums and products are in order. -/
structure Evaluates (ts : List Token) (t : Tree) : Prop where
  spells : Spells expression.toList ts
  derives : Derives .sum ts t
  fits : ts.all Token.fits = true
  nesting : t.nesting ≤ maxDepth
  inBounds : t.InBounds usual supply.value supply.drawn

variable {expression usual supply}

theorem Evaluates.tokens_eq {ts : List Token} {t : Tree}
    (h : Evaluates expression usual supply ts t) : tokens expression = .ok ts := by
  rw [tokens_of_spells h.spells h.derives.apart h.derives.ne_nil, if_pos h.fits]

/-- **What an expression says is unique.** -/
theorem Evaluates.unique {ts ts' : List Token} {t t' : Tree}
    (h : Evaluates expression usual supply ts t) (hspells : Spells expression.toList ts')
    (hderives : Derives .sum ts' t') : ts' = ts ∧ t' = t := by
  have htokens := h.tokens_eq
  rw [tokens_of_spells hspells hderives.apart hderives.ne_nil] at htokens
  have hts : ts' = ts := by
    split at htokens
    · exact Except.ok.inj htokens
    · cases htokens
  subst hts
  have hparse := parse_of_derives h.derives h.nesting
  have hnesting : t'.nesting ≤ maxDepth := by
    refine Nat.not_lt.1 fun hdeep => ?_
    have hfault := isComplete_parse_of_derives hderives hdeep
    rw [hparse, h.derives.isComplete] at hfault
    cases hfault
  exact ⟨rfl, (parse_of_derives hderives hnesting).symm.trans hparse⟩

theorem Evaluates.of_roll {r : Roll} {supply' : Supply}
    (h : roll expression usual supply = (.ok r, supply')) :
    ∃ ts t, Evaluates expression usual supply ts t ∧
      r.total = t.value usual supply.value supply.drawn := by
  rcases htokens : tokens expression with f | ts
  · rw [roll_of_tokens_error expression usual supply htokens] at h
    cases h
  rcases heval : (parse ts).eval rolled usual .same supply with ⟨f | out, supply₁⟩
  · rw [roll_of_eval_error expression usual supply htokens heval] at h
    cases h
  obtain ⟨detail, hroll⟩ := roll_of_eval_ok expression usual supply htokens heval
  rw [hroll] at h
  cases h
  obtain ⟨hbounds, htotal, -⟩ := Tree.inBounds_of_eval heval
  obtain ⟨hspells, hfits, -⟩ := spells_of_tokens htokens
  obtain ⟨hderives, hnesting⟩ := derives_of_parse (Tree.isComplete_of_inBounds hbounds)
  exact ⟨ts, parse ts, ⟨hspells, hderives, hfits, hnesting, hbounds⟩, htotal⟩

/-- No total is larger than a sum may be. -/
theorem natAbs_total_le {r : Roll} {supply' : Supply}
    (h : roll expression usual supply = (.ok r, supply')) : r.total.natAbs ≤ maxTotal := by
  obtain ⟨ts, t, hevaluates, htotal⟩ := Evaluates.of_roll h
  obtain ⟨expansion, heval⟩ := Tree.eval_of_inBounds .same supply hevaluates.inBounds
  have hfits := fits_parse hevaluates.fits
  rw [parse_of_derives hevaluates.derives hevaluates.nesting] at hfits
  rw [htotal]
  exact Tree.natAbs_le_of_eval isFair_rolled hfits heval

/-- **An expression is rolled to the value of its only tree, or not at all.**  It is rolled exactly
if it has a tree and keeps to all limits; then its dice are taken from the supply one after another.
Otherwise there is a fault, and no dice are taken if the fault is one of reading tokens. -/
theorem roll_correct (expression : String) (usual : Int) (supply : Supply) :
    (∀ ts t, Evaluates expression usual supply ts t →
      (∃ detail, roll expression usual supply =
          (.ok ⟨t.value usual supply.value supply.drawn, detail⟩,
            { supply with drawn := supply.drawn + t.diceCount })) ∧
        ∀ ts' t', Spells expression.toList ts' → Derives .sum ts' t' → ts' = ts ∧ t' = t) ∧
      ((¬∃ ts t, Evaluates expression usual supply ts t) →
        ∃ f supply', roll expression usual supply = (.error f, supply')) ∧
      ∀ f supply', roll expression usual supply = (.error f, supply') → f.isLexical = true →
        supply' = supply := by
  refine ⟨?_, ?_, ?_⟩
  · intro ts t h
    refine ⟨?_, fun ts' t' => h.unique⟩
    have hparse := parse_of_derives h.derives h.nesting
    obtain ⟨expansion, heval⟩ := Tree.eval_of_inBounds .same supply h.inBounds
    rw [← hparse] at heval ⊢
    exact roll_of_eval_ok expression usual supply h.tokens_eq heval
  · intro hnone
    rcases hroll : roll expression usual supply with ⟨f | r, supply'⟩
    · exact ⟨f, supply', rfl⟩
    · obtain ⟨ts, t, h, -⟩ := Evaluates.of_roll hroll
      exact absurd ⟨ts, t, h⟩ hnone
  · intro f supply' hroll hlexical
    rcases htokens : tokens expression with e | ts
    · rw [roll_of_tokens_error expression usual supply htokens] at hroll
      cases hroll
      rfl
    rcases heval : (parse ts).eval rolled usual .same supply with ⟨e | out, supply₁⟩
    · rw [roll_of_eval_error expression usual supply htokens heval] at hroll
      cases hroll
      rw [isLexical_of_eval (isRead_parse ts) heval] at hlexical
      cases hlexical
    · obtain ⟨detail, hok⟩ := roll_of_eval_ok expression usual supply htokens heval
      rw [hok] at hroll
      cases hroll

end Roll

/-- Two dice and a number are rolled, with blanks around the sign. -/
theorem roll_dice_and_number :
    ∃ detail, roll "2d6 + 3" 20 (Supply.ofList [4, 5]) =
      (.ok ⟨12, detail⟩, { Supply.ofList [4, 5] with drawn := 2 }) := by
  have hspells : Spells "2d6 + 3".toList
      [.dice ['2'] 'd' ['6'], .sign .plus, .number ['3']] := by
    have hnumber : Spells [' ', '3'] [.number ['3']] :=
      .cons_blank rfl (Spells.cons_token (t := .number ['3']) rfl (.blanks (List.forall_mem_nil _)))
    have hsign : Spells [' ', '+', ' ', '3'] [.sign .plus, .number ['3']] :=
      .cons_blank rfl (Spells.cons_token (t := .sign .plus) rfl hnumber)
    exact Spells.cons_token (t := .dice ['2'] 'd' ['6']) rfl hsign
  have hderives : Derives .sum [.dice ['2'] 'd' ['6'], .sign .plus, .number ['3']]
      (.sum (.dice (some 2) (some 6)) .plus (.number ['3'])) :=
    .sum .plus (.term (.factor (.dice ['2'] 'd' ['6']))) (.factor (.number ['3']))
  have h : Evaluates "2d6 + 3" 20 (Supply.ofList [4, 5]) _ _ :=
    ⟨hspells, hderives, by decide, by decide, by decide⟩
  exact ((roll_correct "2d6 + 3" 20 (Supply.ofList [4, 5])).1 _ _ h).1

end Tabletop.Dice
