import Mathlib.Data.List.DropRight
import Tabletop.Proofs.Dice.Shape

/-!
# The expansion of a roll

The expansion of an expression is what is left of it when the dice have fallen: each term of dice is
replaced by the numbers that the dice showed.  It is an expression itself, with no dice in it, and
it has the total of the roll.  Only where several dice were thrown does it need one more pair of
parentheses than the expression.

The detail of a roll ends with the total.  Two of its parts may be left out because they repeat
another one, and the total is left out if it repeats the shape.  Then the shape is a number in
digits, so there are no dice in the expression and the expansion is the shape as well; the total is
then the only part.

## Main definitions

* `Tree.Expands` — a tree and what may be left of it when its dice have fallen.
* `lastPart` — what a detail says behind its last equals sign.

## Main results

* `Tree.expands_of_eval` — what evaluation leaves of a tree.
* `Tree.eval_expansion` — **the expansion has the value of the tree**, and takes no dice.
* `read_expansion` — **the expansion is read back**, unless it is nested too deeply.
* `detail_true` — **the detail of a roll is true.**
-/

namespace Tabletop.Dice

open Text

/-! ### What is left of a tree -/

/-- A tree, and what may be left of it when its dice have fallen. -/
inductive Tree.Expands : Tree → Tree → Prop
  /-- A number stays as it was written. -/
  | number (ds : List Char) : Expands (.number ds) (.number ds)
  /-- Dice become the numbers that they show. -/
  | dice (count faces : Option Nat) {values : List Nat} (h : ∀ v ∈ values, v < 10 ^ maxDigits) :
    Expands (.dice count faces) (.ofValues values)
  /-- A sign stays. -/
  | signed (s : Sign) {t e : Tree} (h : Expands t e) : Expands (.signed s t) (.signed s e)
  /-- Parentheses stay. -/
  | group {t e : Tree} (h : Expands t e) : Expands (.group t) (.group e)
  /-- The terms of a sum are expanded. -/
  | sum (s : Sign) {l l' r r' : Tree} (hl : Expands l l') (hr : Expands r r') :
    Expands (.sum l s r) (.sum l' s r')
  /-- The factors of a product are expanded. -/
  | product (s : Scale) {l l' r r' : Tree} (hl : Expands l l') (hr : Expands r r') :
    Expands (.product l s r) (.product l' s r')

namespace Tree

/-- **What evaluation leaves of a tree.** -/
theorem expands_of_eval {fall : Fall} (hfall : fall.IsFair) {usual : Int} {sense : Sense} {t : Tree}
    {s s' : Supply} {out : Reading} (h : t.eval fall usual sense s = (.ok out, s')) :
    t.Expands out.expansion := by
  induction t generalizing sense s s' out with
  | number ds =>
    cases h
    exact .number ds
  | dice count faces =>
    obtain ⟨values, -, hvalues, rfl⟩ := exists_values_of_eval_dice hfall h
    refine .dice count faces fun v hv => ?_
    have hmax : maxFaces < 10 ^ maxDigits := by decide
    exact Nat.lt_of_le_of_lt (hvalues v hv) hmax
  | signed sign t ih =>
    obtain ⟨a, heval, -, hexpansion⟩ := eval_signed_eq_ok h
    rw [hexpansion]
    exact .signed sign (ih heval)
  | group t ih =>
    obtain ⟨a, heval, -, hexpansion⟩ := eval_group_eq_ok h
    rw [hexpansion]
    exact .group (ih heval)
  | sum l sign r ihl ihr =>
    rw [eval_sum_eq_joined] at h
    obtain ⟨a, s₁, b, hl, hr, -, hexpansion⟩ := joined_eq_ok h
    rw [hexpansion]
    exact .sum sign (ihl hl) (ihr hr)
  | product l scale r ihl ihr =>
    rw [eval_product_eq_joined] at h
    obtain ⟨a, s₁, b, hl, hr, -, hexpansion⟩ := joined_eq_ok h
    rw [hexpansion]
    exact .product scale (ihl hl) (ihr hr)
  | fault f => cases h
  | stopped t f => exact absurd h eval_stopped_ne_ok

/-! ### The numbers that dice show -/

theorem nesting_plusNumbers (t : Tree) (ns : List Nat) :
    (t.plusNumbers ns).nesting = t.nesting := by
  induction ns generalizing t with
  | nil => rfl
  | cons n ns ih =>
    rw [plusNumbers, ih, nesting, nesting]
    exact Nat.max_zero _

/-- Numbers need parentheses only if there are several of them. -/
theorem nesting_ofValues_le (values : List Nat) : (ofValues values).nesting ≤ 1 := by
  match values with
  | [] => exact Nat.zero_le 1
  | [n] => exact Nat.zero_le 1
  | n :: m :: ns =>
    show ((number (digitsOf n)).plusNumbers (m :: ns)).nesting + 1 ≤ 1
    rw [nesting_plusNumbers]
    exact Nat.le_refl 1

theorem derives_plusNumbers {t : Tree} (h : Derives .sum t.toTokens t) (ns : List Nat) :
    Derives .sum (t.plusNumbers ns).toTokens (t.plusNumbers ns) := by
  induction ns generalizing t with
  | nil => exact h
  | cons n ns ih => exact ih (.sum .plus h (.factor (.number (digitsOf n))))

theorem derives_ofValues (values : List Nat) :
    Derives .factor (ofValues values).toTokens (ofValues values) := by
  match values with
  | [] => exact .number (digitsOf 0)
  | [n] => exact .number (digitsOf n)
  | n :: m :: ns =>
    have hfirst : Derives .sum (number (digitsOf n)).toTokens (number (digitsOf n)) :=
      .term (.factor (.number (digitsOf n)))
    exact .group (derives_plusNumbers hfirst (m :: ns))

theorem areLegible_plusNumbers {t : Tree} (h : AreLegible t.toTokens) {ns : List Nat}
    (hns : ∀ n ∈ ns, n < 10 ^ maxDigits) : AreLegible (t.plusNumbers ns).toTokens := by
  induction ns generalizing t with
  | nil => exact h
  | cons n ns ih =>
    rw [List.forall_mem_cons] at hns
    refine ih (areLegible_append_cons.2 ⟨h, ⟨rfl, rfl⟩, ?_⟩) hns.2
    exact List.forall_mem_singleton.2 ⟨isWritten_number n, fits_number hns.1⟩

theorem areLegible_ofValues {values : List Nat} (h : ∀ v ∈ values, v < 10 ^ maxDigits) :
    AreLegible (ofValues values).toTokens := by
  have hnumber : ∀ n, n < 10 ^ maxDigits → AreLegible (number (digitsOf n)).toTokens := fun n hn =>
    List.forall_mem_singleton.2 ⟨isWritten_number n, fits_number hn⟩
  match values with
  | [] => exact hnumber 0 (by decide)
  | [n] => exact hnumber n (h n List.mem_cons_self)
  | n :: m :: ns =>
    rw [List.forall_mem_cons] at h
    have hsum := areLegible_plusNumbers (hnumber n h.1) h.2
    exact List.forall_mem_cons.2 ⟨⟨rfl, rfl⟩, areLegible_append_cons.2
      ⟨hsum, ⟨rfl, rfl⟩, List.forall_mem_nil _⟩⟩

section Eval

variable {fall : Fall} {usual : Int} {sense : Sense} {s : Supply}

/-- Numbers are added up without dice, if their sum is not too large. -/
theorem eval_plusNumbers {t : Tree} {m : Nat}
    (h : t.eval fall usual sense s = (.ok ⟨m, t⟩, s)) {ns : List Nat}
    (hsum : m + ns.sum ≤ maxTotal) :
    (t.plusNumbers ns).eval fall usual sense s =
      (.ok ⟨(m + ns.sum : Nat), t.plusNumbers ns⟩, s) := by
  induction ns generalizing t m with
  | nil => exact h
  | cons n ns ih =>
    rw [List.sum_cons, ← Nat.add_assoc] at hsum ⊢
    have hjoin : Sign.plus.join m n = .ok (m + n : Nat) :=
      Sign.join_eq_ok_iff.2 ⟨by show ((m : Int) + n).natAbs ≤ maxTotal; omega, Int.natCast_add m n⟩
    have hnumber : (number (digitsOf n)).eval fall usual (sense.behind .plus) s =
        (.ok ⟨n, .number (digitsOf n)⟩, s) := by
      rw [eval_number, numeralValue_digitsOf]
    refine ih ?_ hsum
    rw [eval_sum_eq_joined, joined_of_ok h hnumber hjoin]

/-- What dice showed has their sum as its value, and takes no dice. -/
theorem eval_ofValues {values : List Nat} (hsum : values.sum ≤ maxTotal) :
    (ofValues values).eval fall usual sense s = (.ok ⟨(values.sum : Nat), ofValues values⟩, s) := by
  have hnumber : ∀ n, (number (digitsOf n)).eval fall usual sense s =
      (.ok ⟨n, .number (digitsOf n)⟩, s) := by
    intro n
    rw [eval_number, numeralValue_digitsOf]
  match values with
  | [] => exact hnumber 0
  | [n] => exact hnumber n
  | n :: m :: ns =>
    show (group (plusNumbers (number (digitsOf n)) (m :: ns))).eval fall usual sense s = _
    rw [eval_group, eval_plusNumbers (hnumber n) hsum]
    rfl

/-- **The expansion has the value of the tree**, takes no dice, and is its own expansion, with
whatever dice and usual faces and wherever it stands. -/
theorem eval_expansion (hfall : fall.IsFair) {t : Tree} {s' : Supply} {out : Reading}
    (h : t.eval fall usual sense s = (.ok out, s')) (fall' : Fall) (usual' : Int) (sense' : Sense)
    (other : Supply) : out.expansion.eval fall' usual' sense' other = (.ok out, other) := by
  induction t generalizing sense s s' out sense' with
  | number ds =>
    cases h
    rfl
  | dice count faces =>
    obtain ⟨values, hlength, hvalues, rfl⟩ := exists_values_of_eval_dice hfall h
    exact eval_ofValues (sum_le_maxTotal hlength hvalues)
  | signed sign t ih =>
    obtain ⟨a, heval, htotal, hexpansion⟩ := eval_signed_eq_ok h
    rw [hexpansion, eval_signed, ih heval (sense'.behind sign)]
    simp only [← htotal, ← hexpansion]
  | group t ih =>
    obtain ⟨a, heval, htotal, hexpansion⟩ := eval_group_eq_ok h
    rw [hexpansion, eval_group, ih heval sense']
    simp only [← htotal, ← hexpansion]
  | sum l sign r ihl ihr =>
    rw [eval_sum_eq_joined] at h
    obtain ⟨a, s₁, b, hl, hr, hjoin, hexpansion⟩ := joined_eq_ok h
    rw [hexpansion, eval_sum_eq_joined,
      joined_of_ok (ihl hl sense') (ihr hr (sense'.behind sign)) hjoin, ← hexpansion]
  | product l scale r ihl ihr =>
    rw [eval_product_eq_joined] at h
    obtain ⟨a, s₁, b, hl, hr, hjoin, hexpansion⟩ := joined_eq_ok h
    rw [hexpansion, eval_product_eq_joined,
      joined_of_ok (ihl hl sense') (ihr hr (sense'.under scale)) hjoin, ← hexpansion]
  | fault f => cases h
  | stopped t f => exact absurd h eval_stopped_ne_ok

end Eval

/-! ### Reading an expansion -/

/-- An expansion needs at most one more level of parentheses. -/
theorem Expands.nesting_le {t e : Tree} (h : t.Expands e) : e.nesting ≤ t.nesting + 1 := by
  induction h with
  | number ds => exact Nat.zero_le 1
  | dice count faces hvalues => exact nesting_ofValues_le _
  | signed s h ih | group h ih => exact Nat.add_le_add_right ih 1
  | sum s hl hr ihl ihr | product s hl hr ihl ihr =>
    rw [nesting, nesting]
    omega

/-- **Dice in the expression show in its shape**; without dice the expansion is the shape. -/
theorem Expands.eq_settle {t e : Tree} (h : t.Expands e) (usual : Int)
    (hdice : 'D' ∉ (t.settle usual).chars) : e = t.settle usual := by
  induction h with
  | number ds => rfl
  | dice count faces hvalues =>
    exact absurd (List.mem_append_right _ List.mem_cons_self) hdice
  | signed s h ih =>
    rw [settle, ih fun hmem => hdice (List.mem_cons_of_mem _ hmem)]
  | group h ih =>
    rw [settle, ih fun hmem => hdice (List.mem_cons_of_mem _ (List.mem_append_left _ hmem))]
  | sum s hl hr ihl ihr | product s hl hr ihl ihr =>
    rw [settle, ihl fun hmem => hdice (List.mem_append_left _ hmem),
      ihr fun hmem => hdice (List.mem_append_right _ (List.mem_cons_of_mem _ hmem))]

end Tree

/-- **An expansion keeps to the grammar.** -/
theorem Derives.expand {layer : Layer} {ts : List Token} {t e : Tree} (h : Derives layer ts t)
    (he : t.Expands e) : Derives layer e.toTokens e := by
  induction h generalizing e with
  | number ds =>
    cases he
    exact .number ds
  | dice count letter faces =>
    cases he
    exact Tree.derives_ofValues _
  | signed s _ ih =>
    cases he with
    | signed _ he => exact .signed s (ih he)
  | group _ ih =>
    cases he with
    | group he => exact .group (ih he)
  | factor _ ih => exact .factor (ih he)
  | product s _ _ ihl ihr =>
    cases he with
    | product _ hl hr => exact .product s (ihl hl) (ihr hr)
  | term _ ih => exact .term (ih he)
  | sum s _ _ ihl ihr =>
    cases he with
    | sum _ hl hr => exact .sum s (ihl hl) (ihr hr)

/-- The numerals of an expansion can be read if those of the expression can. -/
theorem Derives.areLegible_expand {layer : Layer} {ts : List Token} {t e : Tree}
    (h : Derives layer ts t) (hts : AreLegible ts) (he : t.Expands e) : AreLegible e.toTokens := by
  induction h generalizing e with
  | number ds =>
    cases he
    exact hts
  | dice count letter faces =>
    cases he with
    | dice _ _ hvalues => exact Tree.areLegible_ofValues hvalues
  | signed s _ ih =>
    cases he with
    | signed _ he =>
      obtain ⟨hsign, hts⟩ := List.forall_mem_cons.1 hts
      exact List.forall_mem_cons.2 ⟨hsign, ih hts he⟩
  | group _ ih =>
    cases he with
    | group he =>
      obtain ⟨hopening, hts⟩ := List.forall_mem_cons.1 hts
      obtain ⟨hts, hclosing⟩ := areLegible_append_cons.1 hts
      exact List.forall_mem_cons.2
        ⟨hopening, areLegible_append_cons.2 ⟨ih hts he, hclosing⟩⟩
  | factor _ ih => exact ih hts he
  | product s _ _ ihl ihr =>
    cases he with
    | product _ hl hr =>
      obtain ⟨hls, hscale, hrs⟩ := areLegible_append_cons.1 hts
      exact areLegible_append_cons.2 ⟨ihl hls hl, hscale, ihr hrs hr⟩
  | term _ ih => exact ih hts he
  | sum s _ _ ihl ihr =>
    cases he with
    | sum _ hl hr =>
      obtain ⟨hls, hsign, hrs⟩ := areLegible_append_cons.1 hts
      exact areLegible_append_cons.2 ⟨ihl hls hl, hsign, ihr hrs hr⟩

/-- **The expansion is read back**, unless the expression is nested as deeply as may be. -/
theorem read_expansion {fall : Fall} (hfall : fall.IsFair) {expression : String} {usual : Int}
    {supply supply' : Supply} {t : Tree} {r : Reading}
    (h : read fall expression usual supply = (.ok (t, r), supply'))
    (hnesting : t.nesting < maxDepth) (fall' : Fall) (usual' : Int) (other : Supply) :
    read fall' r.expansion.text usual' other = (.ok (r.expansion, r), other) := by
  obtain ⟨ts, htokens, hderives, -, heval⟩ := read_eq_ok h
  have hexpands := Tree.expands_of_eval hfall heval
  have hlegible := hderives.areLegible_expand (areLegible_of_tokens htokens) hexpands
  have hdepth : r.expansion.nesting ≤ maxDepth := Nat.le_trans hexpands.nesting_le hnesting
  exact read_text (hderives.expand hexpands) hlegible hdepth
    (Tree.eval_expansion hfall heval fall' usual' .same other)

/-! ### The last part of a detail -/

/-- What a detail says behind its last equals sign. -/
def lastPart (detail : String) : String :=
  String.ofList (detail.toList.rtakeWhile fun c => c != '=')

theorem lastPart_of_notMem {part : String} (h : '=' ∉ part.toList) : lastPart part = part := by
  have hchars : ∀ c ∈ part.toList, (c != '=') = true := fun c hc =>
    bne_iff_ne.2 fun heq => h (heq ▸ hc)
  rw [lastPart, List.rtakeWhile_eq_self_iff.2 hchars, String.ofList_toList]

theorem lastPart_of_toList_eq {text part : String} (h : '=' ∉ part.toList) (cs : List Char)
    (htext : text.toList = cs ++ '=' :: part.toList) : lastPart text = part := by
  have hchars : ∀ c ∈ part.toList.reverse, (c != '=') = true := fun c hc =>
    bne_iff_ne.2 fun heq => h (heq ▸ List.mem_reverse.1 hc)
  have hlast : text.toList.rtakeWhile (fun c => c != '=') = part.toList := by
    rw [htext, List.rtakeWhile, List.reverse_append, List.reverse_cons, List.append_assoc,
      List.takeWhile_append_of_pos hchars, List.singleton_append,
      List.takeWhile_cons_of_neg (by decide), List.append_nil, List.reverse_reverse]
  rw [lastPart, hlast, String.ofList_toList]

/-- **A detail ends with the total**, if the expansion is the shape where the total is. -/
theorem lastPart_detail {shape expansion total : String} (htotal : '=' ∉ total.toList)
    (h : total = shape → expansion = shape) : lastPart (detail shape expansion total) = total := by
  by_cases hshape : total = shape
  · have hparts : detailParts shape expansion total = [shape] := by
      rw [detailParts, if_pos (.inl (h hshape)), if_pos hshape]
      rfl
    rw [detail, hparts, ← hshape, String.intercalate_singleton]
    exact lastPart_of_notMem htotal
  by_cases hexpansion : expansion = shape ∨ expansion = total
  · have hparts : detailParts shape expansion total = [shape, total] := by
      rw [detailParts, if_pos hexpansion, if_neg hshape]
      rfl
    refine lastPart_of_toList_eq htotal shape.toList ?_
    rw [detail, hparts, String.toList_intercalate]
    simp
  · have hparts : detailParts shape expansion total = [shape, expansion, total] := by
      rw [detailParts, if_neg hexpansion, if_neg hshape]
      rfl
    refine lastPart_of_toList_eq htotal (shape.toList ++ '=' :: expansion.toList) ?_
    rw [detail, hparts, String.toList_intercalate]
    simp

/-- The text of a number is made of digits and a minus sign. -/
theorem notMem_intText {c : Char} (hdigit : isDigit c = false) (hminus : c ≠ '-') (n : Int) :
    c ∉ (intText n).toList := by
  have hdigits : ∀ n, c ∉ digitsOf n := by
    intro n hc
    rw [isDigit_of_mem_digitsOf hc] at hdigit
    cases hdigit
  cases n with
  | ofNat n =>
    show c ∉ (intText (n : Nat)).toList
    rw [toList_intText_natCast]
    exact hdigits n
  | negSucc n =>
    rw [toList_intText_negSucc, List.mem_cons, not_or]
    exact ⟨hminus, hdigits (n + 1)⟩

/-- **The detail of a roll is true.**  If an expression is rolled, its detail is made of its shape,
the expansion and the total, and whichever of these are left out, what it says behind its last
equals sign is the total in decimal digits.  If no more than thirty-one parentheses and signs are
around one another in the expression, the expansion is an expression as well: evaluated in any way,
with whatever usual faces, it takes no dice and has the same total. -/
theorem detail_true {expression : String} {usual : Int} {supply supply' : Supply} {out : Roll}
    (h : roll expression usual supply = (.ok out, supply')) :
    ∃ t expansion,
      read rolled expression usual supply = (.ok (t, ⟨out.total, expansion⟩), supply') ∧
        out.detail = detail (t.settle usual).text expansion.text (intText out.total) ∧
        lastPart out.detail = intText out.total ∧
        (t.nesting < maxDepth → ∀ usual' other,
          (∃ detail', roll expansion.text usual' other = (.ok ⟨out.total, detail'⟩, other)) ∧
            largest expansion.text usual' = out.total) := by
  rw [roll_apply] at h
  rcases hread : read rolled expression usual supply with ⟨f | ⟨t, r⟩, supply₁⟩
  · rw [hread] at h
    cases h
  rw [hread] at h
  cases h
  obtain ⟨ts, -, -, -, heval⟩ := read_eq_ok hread
  refine ⟨t, r.expansion, rfl, rfl, ?_, ?_⟩
  · apply lastPart_detail (notMem_intText (by decide) (by decide) r.total)
    intro htotal
    -- A shape that is a number has no dice in it.
    have hdice : 'D' ∉ (t.settle usual).chars := by
      rw [← @String.toList_ofList (t.settle usual).chars, ← Tree.text, ← htotal]
      exact notMem_intText (by decide) (by decide) r.total
    rw [(Tree.expands_of_eval isFair_rolled heval).eq_settle usual hdice]
  · intro hnesting usual' other
    have hexpansion := fun fall' =>
      read_expansion isFair_rolled hread hnesting fall' usual'
    refine ⟨⟨detail (r.expansion.settle usual').text r.expansion.text (intText r.total), ?_⟩, ?_⟩
    · rw [roll_apply, hexpansion]
    · have hlargest : largest? r.expansion.text usual' = .ok r.total := by
        rw [largest?, ExceptT.run, hexpansion]
        rfl
      rw [largest, hlargest]

/-- Two dice behind thirty-one signs: the detail has all three parts, and the expansion, with
parentheses as the thirty-second level, is rolled to the same total. -/
theorem detail_true_thirty_one_signs :
    ∃ out supply',
      roll "-------------------------------2d6" 100 (Supply.ofList [4, 5]) = (.ok out, supply') ∧
        out.detail =
          "-------------------------------2D6=-------------------------------(4+5)=-9" ∧
        lastPart out.detail = "-9" ∧
        ∀ usual' other, ∃ detail',
          roll "-------------------------------(4+5)" usual' other =
            (.ok ⟨-9, detail'⟩, other) := by
  obtain ⟨out, supply', h⟩ : ∃ out supply',
      roll "-------------------------------2d6" 100 (Supply.ofList [4, 5]) = (.ok out, supply') :=
    ⟨_, _, rfl⟩
  obtain ⟨t, expansion, hread, hdetail, hlast, hexpansion⟩ := detail_true h
  cases h
  cases hread
  refine ⟨_, _, rfl, rfl, hlast, fun usual' other => ?_⟩
  exact (hexpansion (by decide) usual' other).1

end Tabletop.Dice
