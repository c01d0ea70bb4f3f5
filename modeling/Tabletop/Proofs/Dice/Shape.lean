import Mathlib.Data.List.TakeWhile
import Tabletop.Proofs.Dice.Roll

/-!
# The shape of a roll

The shape is the expression written out with no blanks, in which no count and no number of faces is
left out.  It is an expression itself, and rolling it with the same dice gives the same roll, with
whatever number of usual faces.  So the first part of a detail says all about the roll.

A shape is written token by token from the tree of the expression.  Reading it gives back these
tokens, since the grammar lets no two operands stand side by side and the numerals that are filled
in keep to the limits of dice.

## Main definitions

* `Tree.toTokens` — the tokens of a tree that is written out.
* `firstPart` — what a detail says before its first equals sign.

## Main results

* `tokens_text`, `read_text` — a tree that is written out is read back.
* `Derives.settle` — filling in what is left out keeps to the grammar.
* `read_settle` — **the shape of an expression is read as the expression was**, with the same dice.
* `shape_restates` — **the first part of a detail restates the roll.**
-/

namespace Tabletop.Dice

open Text

/-! ### The tokens of a tree -/

/-- The tokens of a tree that is written out. -/
def Tree.toTokens : Tree → List Token
  | number ds => [.number ds]
  | dice count faces => [.dice (optionalDigits count) 'D' (optionalDigits faces)]
  | signed s t => .sign s :: t.toTokens
  | group t => .opening :: (t.toTokens ++ [.closing])
  | sum l s r => l.toTokens ++ .sign s :: r.toTokens
  | product l s r => l.toTokens ++ .scale s :: r.toTokens
  | fault _ => []
  | stopped t _ => t.toTokens

theorem Tree.flatMap_chars_toTokens (t : Tree) : t.toTokens.flatMap Token.chars = t.chars := by
  induction t with
  | number ds => exact List.append_nil ds
  | dice count faces => exact List.append_nil _
  | signed s t ih =>
    rw [toTokens, List.flatMap_cons, ih]
    rfl
  | group t ih =>
    rw [toTokens, List.flatMap_cons, List.flatMap_append, ih]
    rfl
  | sum l s r ihl ihr =>
    rw [toTokens, List.flatMap_append, List.flatMap_cons, ihl, ihr]
    rfl
  | product l s r ihl ihr =>
    rw [toTokens, List.flatMap_append, List.flatMap_cons, ihl, ihr]
    rfl
  | fault f => rfl
  | stopped t f ih => exact ih

theorem areLegible_dice {count faces : Nat} (hcount : count < 10 ^ maxDigits)
    (hfaces : faces < 10 ^ maxDigits) :
    AreLegible [.dice (digitsOf count) 'D' (digitsOf faces)] := by
  have hdigits : ∀ n, (digitsOf n).all isDigit = true := fun n =>
    List.all_eq_true.2 fun _ => isDigit_of_mem_digitsOf
  have hlength : ∀ {n}, n < 10 ^ maxDigits → (digitsOf n).length ≤ maxDigits :=
    (Nat.length_toDigits_le_iff (by decide) (by decide)).2
  refine List.forall_mem_singleton.2 ⟨?_, ?_⟩
  · rw [Token.isWritten, hdigits, hdigits]
    rfl
  · rw [Token.fits, decide_eq_true (hlength hcount), decide_eq_true (hlength hfaces)]
    rfl

/-! ### Reading what is written out -/

section Text

variable {t : Tree} (h : Derives .sum t.toTokens t) (hlegible : AreLegible t.toTokens)

include h hlegible in
/-- **The tokens of a tree are read from its text.** -/
theorem tokens_text : tokens t.text = .ok t.toTokens := by
  rw [Tree.text, ← t.flatMap_chars_toTokens]
  exact tokens_of_areLegible hlegible h.apart h.ne_nil

include h hlegible in
/-- A tree that is written out is read back and evaluated. -/
theorem read_text (hnesting : t.nesting ≤ maxDepth) {fall : Fall} {usual : Int}
    {supply supply' : Supply} {r : Reading}
    (heval : t.eval fall usual .same supply = (.ok r, supply')) :
    read fall t.text usual supply = (.ok (t, r), supply') := by
  simp only [read_apply, tokens_text h hlegible, parse_of_derives h hnesting, heval]

end Text

/-! ### Filling in what is left out -/

theorem numeral?_digitsOf (n : Nat) : numeral? (digitsOf n) = some n := by
  rw [numeral?, if_neg (by simp [digitsOf_ne_nil]), numeralValue_digitsOf]

@[simp] theorem Tree.nesting_settle (usual : Int) (t : Tree) :
    (t.settle usual).nesting = t.nesting := by
  induction t with
  | number | dice | fault => rfl
  | signed _ _ ih | group _ ih => rw [settle, nesting, nesting, ih]
  | sum _ _ _ ihl ihr | product _ _ _ ihl ihr => rw [settle, nesting, nesting, ihl, ihr]
  | stopped _ _ ih => rw [settle, nesting, nesting, ih]

/-- **Filling in what is left out keeps to the grammar.** -/
theorem Derives.settle {layer : Layer} {ts : List Token} {t : Tree} (h : Derives layer ts t)
    (usual : Int) : Derives layer (t.settle usual).toTokens (t.settle usual) := by
  induction h with
  | number ds => exact .number ds
  | dice count letter faces =>
    have hdice := Derives.dice (digitsOf ((numeral? count).getD 1)) 'D'
      (digitsOf (Tree.facesOr usual (numeral? faces)).toNat)
    rw [numeral?_digitsOf, numeral?_digitsOf] at hdice
    exact hdice
  | signed s _ ih => exact .signed s ih
  | group _ ih => exact .group ih
  | factor _ ih => exact .factor ih
  | product s _ _ ihl ihr => exact .product s ihl ihr
  | term _ ih => exact .term ih
  | sum s _ _ ihl ihr => exact .sum s ihl ihr

section Eval

variable {fall : Fall} {usual : Int} {sense : Sense} {t : Tree} {s s' : Supply} {out : Reading}

theorem Tree.isComplete_of_eval (h : t.eval fall usual sense s = (.ok out, s')) :
    t.isComplete = true := by
  induction t generalizing sense s out s' with
  | number | dice => rfl
  | signed sign t ih =>
    obtain ⟨a, heval, -⟩ := eval_signed_eq_ok h
    exact ih heval
  | group t ih =>
    obtain ⟨a, heval, -⟩ := eval_group_eq_ok h
    exact ih heval
  | sum l sign r ihl ihr =>
    rw [eval_sum_eq_joined] at h
    obtain ⟨a, s₁, b, hl, hr, -⟩ := joined_eq_ok h
    rw [isComplete, ihl hl, ihr hr]
    rfl
  | product l scale r ihl ihr =>
    rw [eval_product_eq_joined] at h
    obtain ⟨a, s₁, b, hl, hr, -⟩ := joined_eq_ok h
    rw [isComplete, ihl hl, ihr hr]
    rfl
  | fault f => cases h
  | stopped t f => exact absurd h eval_stopped_ne_ok

/-- **A tree in which all is filled in is evaluated as before**, whatever the usual faces are. -/
theorem Tree.eval_settle (h : t.eval fall usual sense s = (.ok out, s')) (usual' : Int) :
    (t.settle usual).eval fall usual' sense s = (.ok out, s') := by
  induction t generalizing sense s out s' with
  | number ds => exact h
  | dice count faces =>
    obtain ⟨⟨hcount, hfaces⟩, values, hthrow, rfl⟩ := eval_dice_eq_ok h
    have hfilled : diceTerm usual' (some (count.getD 1)) (some (facesOr usual faces).toNat) =
        .ok (count.getD 1, (facesOr usual faces).toNat) := by
      refine diceTerm_eq_ok_iff.2 ⟨⟨hcount, ?_⟩, rfl, ?_⟩
      · rw [facesOr_some]
        omega
      · rw [facesOr_some, Int.toNat_natCast]
    rw [settle, eval_dice, hfilled]
    simp only [hthrow]
    rfl
  | signed sign t ih =>
    obtain ⟨a, heval, -⟩ := eval_signed_eq_ok h
    rw [eval_signed, heval] at h
    rw [settle, eval_signed, ih heval]
    exact h
  | group t ih =>
    obtain ⟨a, heval, -⟩ := eval_group_eq_ok h
    rw [eval_group, heval] at h
    rw [settle, eval_group, ih heval]
    exact h
  | sum l sign r ihl ihr =>
    rw [eval_sum_eq_joined] at h
    obtain ⟨a, s₁, b, hl, hr, -⟩ := joined_eq_ok h
    rw [settle, eval_sum_eq_joined, joined_congr ((ihl hl).trans hl.symm)]
    · exact h
    · intro a' s₁' hl'
      cases hl.symm.trans hl'
      exact (ihr hr).trans hr.symm
  | product l scale r ihl ihr =>
    rw [eval_product_eq_joined] at h
    obtain ⟨a, s₁, b, hl, hr, -⟩ := joined_eq_ok h
    rw [settle, eval_product_eq_joined, joined_congr ((ihl hl).trans hl.symm)]
    · exact h
    · intro a' s₁' hl'
      cases hl.symm.trans hl'
      exact (ihr hr).trans hr.symm
  | fault f => cases h
  | stopped t f => exact absurd h eval_stopped_ne_ok

/-- The numerals that are filled in keep to the limits of dice, so they can be read. -/
theorem Derives.areLegible_settle {layer : Layer} {ts : List Token} (h : Derives layer ts t)
    (hts : AreLegible ts) (heval : t.eval fall usual sense s = (.ok out, s')) :
    AreLegible (t.settle usual).toTokens := by
  induction h generalizing sense s out s' with
  | number ds => exact hts
  | dice count letter faces =>
    obtain ⟨⟨⟨-, hcount⟩, -, hfaces⟩, -⟩ := Tree.eval_dice_eq_ok heval
    have hdice : maxDice < 10 ^ maxDigits := by decide
    have hmax : maxFaces < 10 ^ maxDigits := by decide
    exact areLegible_dice (by omega) (by omega)
  | signed sign h ih =>
    obtain ⟨a, heval, -⟩ := Tree.eval_signed_eq_ok heval
    obtain ⟨hsign, hts⟩ := List.forall_mem_cons.1 hts
    exact List.forall_mem_cons.2 ⟨hsign, ih hts heval⟩
  | group h ih =>
    obtain ⟨a, heval, -⟩ := Tree.eval_group_eq_ok heval
    obtain ⟨hopening, hts⟩ := List.forall_mem_cons.1 hts
    obtain ⟨hts, hclosing⟩ := areLegible_append_cons.1 hts
    exact List.forall_mem_cons.2 ⟨hopening, areLegible_append_cons.2 ⟨ih hts heval, hclosing⟩⟩
  | factor h ih => exact ih hts heval
  | product scale hl hr ihl ihr =>
    rw [Tree.eval_product_eq_joined] at heval
    obtain ⟨a, s₁, b, hevall, hevalr, -⟩ := Tree.joined_eq_ok heval
    obtain ⟨hls, hscale, hrs⟩ := areLegible_append_cons.1 hts
    exact areLegible_append_cons.2 ⟨ihl hls hevall, hscale, ihr hrs hevalr⟩
  | term h ih => exact ih hts heval
  | sum sign hl hr ihl ihr =>
    rw [Tree.eval_sum_eq_joined] at heval
    obtain ⟨a, s₁, b, hevall, hevalr, -⟩ := Tree.joined_eq_ok heval
    obtain ⟨hls, hsign, hrs⟩ := areLegible_append_cons.1 hts
    exact areLegible_append_cons.2 ⟨ihl hls hevall, hsign, ihr hrs hevalr⟩

end Eval

/-! ### The shape of an expression -/

/-- What has been read of an expression: its tokens, their tree, and the value of the tree. -/
theorem read_eq_ok {fall : Fall} {expression : String} {usual : Int} {supply supply' : Supply}
    {t : Tree} {r : Reading}
    (h : read fall expression usual supply = (.ok (t, r), supply')) :
    ∃ ts, tokens expression = .ok ts ∧ Derives .sum ts t ∧ t.nesting ≤ maxDepth ∧
      t.eval fall usual .same supply = (.ok r, supply') := by
  rw [read_apply] at h
  rcases htokens : tokens expression with f | ts
  · simp only [htokens] at h
    cases h
  rcases heval : (parse ts).eval fall usual .same supply with ⟨f | r', supply₁⟩
  · simp only [htokens, heval] at h
    cases h
  · simp only [htokens, heval] at h
    cases h
    obtain ⟨hderives, hnesting⟩ := derives_of_parse (Tree.isComplete_of_eval heval)
    exact ⟨ts, rfl, hderives, hnesting, heval⟩

/-- **The shape of an expression is read as the expression was**: it has the tree in which all is
filled in, and the same total and the same numbers on the same dice. -/
theorem read_settle {fall : Fall} {expression : String} {usual : Int} {supply supply' : Supply}
    {t : Tree} {r : Reading}
    (h : read fall expression usual supply = (.ok (t, r), supply')) (usual' : Int) :
    read fall (t.settle usual).text usual' supply = (.ok (t.settle usual, r), supply') := by
  obtain ⟨ts, htokens, hderives, hnesting, heval⟩ := read_eq_ok h
  have hlegible := hderives.areLegible_settle (areLegible_of_tokens htokens) heval
  have hfilled : (t.settle usual).nesting ≤ maxDepth := by rwa [Tree.nesting_settle]
  exact read_text (hderives.settle usual) hlegible hfilled (Tree.eval_settle heval usual')

/-! ### The first part of a detail -/

/-- What a detail says before its first equals sign. -/
def firstPart (detail : String) : String :=
  String.ofList (detail.toList.takeWhile fun c => c != '=')

theorem not_mem_chars_of_areLegible {t : Tree} (h : AreLegible t.toTokens) : '=' ∉ t.chars := by
  rw [← t.flatMap_chars_toTokens, List.mem_flatMap]
  rintro ⟨token, htoken, hchar⟩
  rcases class_of_isWritten (h token htoken).1 hchar with hdigit | hletter | hsymbol
  · exact absurd hdigit (by decide)
  · exact absurd hletter (by decide)
  · exact absurd hsymbol (by decide)

/-- A detail starts with the shape. -/
theorem firstPart_detail {shape : String} (h : '=' ∉ shape.toList) (expansion total : String) :
    firstPart (detail shape expansion total) = shape := by
  obtain ⟨parts, hparts⟩ : ∃ parts, detailParts shape expansion total = shape :: parts :=
    ⟨_, List.append_assoc _ _ _⟩
  have hshape : ∀ c ∈ shape.toList, (c != '=') = true := fun c hc =>
    bne_iff_ne.2 fun heq => h (heq ▸ hc)
  have hchars : (detail shape expansion total).toList.takeWhile (fun c => c != '=') =
      shape.toList := by
    rw [detail, hparts, String.toList_intercalate, List.map_cons]
    rcases parts.map String.toList with _ | ⟨part, parts⟩
    · rw [List.intercalate_singleton, List.takeWhile_eq_self_iff]
      exact hshape
    · rw [List.intercalate_cons_cons, List.append_assoc, List.takeWhile_append_of_pos hshape]
      exact List.append_nil _
  rw [firstPart, hchars, String.ofList_toList]

/-- **The first part of a detail restates the roll.**  If an expression is read, its shape is read
with the same dice and with whatever number of usual faces: it has the same total, it is its own
shape, and the dice show the same.  The shape is the first part of the detail, so rolling the first
part gives the same roll again, with the same detail, and leaves the same dice. -/
theorem shape_restates {expression : String} {usual : Int} {supply supply' : Supply} {t : Tree}
    {r : Reading} (h : read rolled expression usual supply = (.ok (t, r), supply'))
    (usual' : Int) :
    read rolled (t.settle usual).text usual' supply = (.ok (t.settle usual, r), supply') ∧
      (t.settle usual).settle usual' = t.settle usual ∧
      ∃ detail, roll expression usual supply = (.ok ⟨r.total, detail⟩, supply') ∧
        firstPart detail = (t.settle usual).text ∧
        roll (firstPart detail) usual' supply = (.ok ⟨r.total, detail⟩, supply') := by
  have hshape := read_settle h usual'
  obtain ⟨ts, htokens, hderives, hnesting, heval⟩ := read_eq_ok h
  have hlegible := hderives.areLegible_settle (areLegible_of_tokens htokens) heval
  have hshapeChars : '=' ∉ (t.settle usual).text.toList := by
    rw [Tree.text, String.toList_ofList]
    exact not_mem_chars_of_areLegible hlegible
  have hfirst := firstPart_detail hshapeChars r.expansion.text (intText r.total)
  refine ⟨hshape, t.settle_settle usual usual', _, ?_, hfirst, ?_⟩
  · rw [roll_apply, h]
  · rw [hfirst, roll_apply, hshape]
    simp only [Tree.settle_settle]

/-- Two dice and a die with the usual twenty faces are rolled again from their shape, where the
usual faces are six. -/
theorem shape_restates_usual_die :
    ∃ detail, roll "2d6 + d" 20 (Supply.ofList [4, 5, 7]) =
        (.ok ⟨16, detail⟩, { Supply.ofList [4, 5, 7] with drawn := 3 }) ∧
      firstPart detail = "2D6+1D20" ∧
      roll (firstPart detail) 6 (Supply.ofList [4, 5, 7]) =
        (.ok ⟨16, detail⟩, { Supply.ofList [4, 5, 7] with drawn := 3 }) := by
  have h : read rolled "2d6 + d" 20 (Supply.ofList [4, 5, 7]) =
      (.ok (.sum (.dice (some 2) (some 6)) .plus (.dice none none),
          ⟨16, .sum (.ofValues [4, 5]) .plus (.ofValues [7])⟩),
        { Supply.ofList [4, 5, 7] with drawn := 3 }) := rfl
  exact (shape_restates h 6).2.2

end Tabletop.Dice
