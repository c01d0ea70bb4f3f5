import Tabletop.Dice.Eval
import Tabletop.Proofs.Dice.Spelling

/-!
# The grammar of dice expressions

The grammar relates lists of tokens with their trees.  It is ambiguous about nothing, and the
reader finds the tree of every list of tokens that has one, as long as parentheses and signs are
not nested too deeply.

Both directions follow the reader through the tokens.  For completeness, a derivation says what the
reader does with the derived tokens at any place where they may stand.  For soundness, the frames
that are open account for all tokens that have been read.

## Main definitions

* `Layer`, `Derives` — the grammar, with the trees that it gives to lists of tokens.
* `Tree.nesting` — how many parentheses and signs are around one another.
* `Opens` — the tokens that have opened a stack of frames.

## Main results

* `parse_of_derives` — **the tree of a list of tokens is read from it**, if it is not nested too
  deeply.
* `derives_of_parse` — **a tree without a fault is a tree of the tokens it was read from.**
-/

namespace Tabletop.Dice

/-! ### Derivations -/

/-- The layers of the grammar. -/
inductive Layer where
  /-- An operand, perhaps with signs before it. -/
  | factor
  /-- Factors with scales between them. -/
  | product
  /-- Products with signs between them. -/
  | sum
  deriving DecidableEq, Repr

/-- The lists of tokens that the grammar derives, with their trees. -/
inductive Derives : Layer → List Token → Tree → Prop
  /-- A number is a factor. -/
  | number (ds : List Char) : Derives .factor [.number ds] (.number ds)
  /-- So are dice. -/
  | dice (count : List Char) (letter : Char) (faces : List Char) :
    Derives .factor [.dice count letter faces] (.dice (numeral? count) (numeral? faces))
  /-- A factor may have a sign before it. -/
  | signed (s : Sign) {ts : List Token} {t : Tree} (h : Derives .factor ts t) :
    Derives .factor (.sign s :: ts) (.signed s t)
  /-- An expression in parentheses is a factor. -/
  | group {ts : List Token} {t : Tree} (h : Derives .sum ts t) :
    Derives .factor (.opening :: (ts ++ [.closing])) (.group t)
  /-- A factor is a product. -/
  | factor {ts : List Token} {t : Tree} (h : Derives .factor ts t) : Derives .product ts t
  /-- A product may go on with one more factor. -/
  | product {ls rs : List Token} {l r : Tree} (s : Scale) (hl : Derives .product ls l)
      (hr : Derives .factor rs r) : Derives .product (ls ++ .scale s :: rs) (.product l s r)
  /-- A product is a sum. -/
  | term {ts : List Token} {t : Tree} (h : Derives .product ts t) : Derives .sum ts t
  /-- A sum may go on with one more product. -/
  | sum {ls rs : List Token} {l r : Tree} (s : Sign) (hl : Derives .sum ls l)
      (hr : Derives .product rs r) : Derives .sum (ls ++ .sign s :: rs) (.sum l s r)

theorem Derives.ne_nil {layer : Layer} {ts : List Token} {t : Tree} (h : Derives layer ts t) :
    ts ≠ [] := by
  induction h with
  | number | dice | signed | group => exact List.cons_ne_nil _ _
  | factor _ ih | term _ ih => exact ih
  | product | sum => exact List.append_ne_nil_of_right_ne_nil _ (List.cons_ne_nil _ _)

theorem apart_append_cons {ls rs : List Token} {t : Token} (ht : t.isOperand = false)
    (hl : Apart ls) (hr : Apart rs) : Apart (ls ++ t :: rs) := by
  refine hl.append (List.isChain_cons.2 ⟨?_, hr⟩) ?_
  · intro _ _ hoperand
    rw [ht] at hoperand
    cases hoperand
  · intro _ _ t' ht' _
    cases ht'
    exact ht

theorem apart_cons {rs : List Token} {t : Token} (ht : t.isOperand = false) (hr : Apart rs) :
    Apart (t :: rs) :=
  apart_append_cons ht .nil hr

/-- **A derived list of tokens has no two operands side by side.** -/
theorem Derives.apart {layer : Layer} {ts : List Token} {t : Tree} (h : Derives layer ts t) :
    Apart ts := by
  induction h with
  | number | dice => exact .singleton _
  | signed s _ ih => exact apart_cons rfl ih
  | group _ ih => exact apart_cons rfl (apart_append_cons rfl ih .nil)
  | factor _ ih | term _ ih => exact ih
  | product s _ _ ihl ihr => exact apart_append_cons rfl ihl ihr
  | sum s _ _ ihl ihr => exact apart_append_cons rfl ihl ihr

theorem Derives.isComplete {layer : Layer} {ts : List Token} {t : Tree}
    (h : Derives layer ts t) : t.isComplete = true := by
  induction h with
  | number | dice => rfl
  | signed _ _ ih | group _ ih | factor _ ih | term _ ih => exact ih
  | product _ _ _ ihl ihr | sum _ _ _ ihl ihr =>
    rw [Tree.isComplete, ihl, ihr]
    rfl

/-- How many parentheses and signs are around one another, at most. -/
def Tree.nesting : Tree → Nat
  | number _ => 0
  | dice _ _ => 0
  | signed _ t => t.nesting + 1
  | group t => t.nesting + 1
  | sum l _ r => max l.nesting r.nesting
  | product l _ r => max l.nesting r.nesting
  | fault _ => 0
  | stopped t _ => t.nesting

/-! ### Completeness -/

theorem isComplete_of_fill {frames : List Frame} {t : Tree}
    (h : (fill frames t).isComplete = true) : t.isComplete = true := by
  induction frames generalizing t with
  | nil => exact h
  | cons f frames ih =>
    have hf := ih h
    cases f with
    | sum l s =>
      rw [Frame.fill, Tree.isComplete, Bool.and_eq_true] at hf
      exact hf.2
    | product l s =>
      rw [Frame.fill, Tree.isComplete, Bool.and_eq_true] at hf
      exact hf.2
    | signed s => exact hf
    | group => exact hf

theorem isComplete_fill_fault (frames : List Frame) (f : Fault) :
    (fill frames (.fault f)).isComplete = false := by
  rw [Bool.eq_false_iff]
  intro h
  exact Bool.false_ne_true (isComplete_of_fill h)

theorem isComplete_fill_stopped (frames : List Frame) (t : Tree) (f : Fault) :
    (fill frames (.stopped t f)).isComplete = false := by
  rw [Bool.eq_false_iff]
  intro h
  exact Bool.false_ne_true (isComplete_of_fill h)

/-- Whether something of a layer may stand at a place. -/
def Layer.mayStand : Layer → List Frame → Bool
  | .factor, _ => true
  | .product, .product _ _ :: _ => false
  | .product, .signed _ :: _ => false
  | .product, _ => true
  | .sum, [] => true
  | .sum, .group :: _ => true
  | .sum, _ => false

theorem mayStand_product_of_sum {frames : List Frame} (h : Layer.sum.mayStand frames = true) :
    Layer.product.mayStand frames = true := by
  rcases frames with _ | ⟨⟨⟩ | ⟨⟩ | ⟨⟩ | ⟨⟩, frames⟩ <;> first | rfl | cases h

theorem closeFactor_of_mayStand {frames : List Frame}
    (h : Layer.product.mayStand frames = true) (t : Tree) :
    closeFactor t frames = (t, frames) := by
  rcases frames with _ | ⟨⟨⟩ | ⟨⟩ | ⟨⟩ | ⟨⟩, frames⟩ <;> first | rfl | cases h

theorem closeTerm_of_mayStand {frames : List Frame} (h : Layer.sum.mayStand frames = true)
    (t : Tree) : closeTerm t frames = (t, frames) := by
  rcases frames with _ | ⟨⟨⟩ | ⟨⟩ | ⟨⟩ | ⟨⟩, frames⟩ <;> first | rfl | cases h

/-- What the reader makes of the tokens of a layer, with others behind them. -/
def ReadsOn (frames : List Frame) (ts rest : List Token) (t : Tree) : Layer → Prop
  | .factor =>
    readOperand frames (ts ++ rest) =
      readOperator (closeFactor t frames).1 (closeFactor t frames).2 rest
  | .product => readOperand frames (ts ++ rest) = readOperator t frames rest
  | .sum => ∃ t' frames', closeTerm t' frames' = (t, frames) ∧
      readOperand frames (ts ++ rest) = readOperator t' frames' rest

theorem readOperand_level {frames : List Frame} (h : depth frames < maxDepth) (f : Frame)
    (ts : List Token) :
    openLevel frames f (fun frames' => readOperand frames' ts) = readOperand (f :: frames) ts :=
  if_pos h

theorem isComplete_openLevel {frames : List Frame} (h : ¬depth frames < maxDepth) (f : Frame)
    (read : List Frame → Tree) : (openLevel frames f read).isComplete = false := by
  rw [openLevel, if_neg h]
  exact isComplete_fill_fault frames _

/-- **The reader follows a derivation** at any place where the derived tokens may stand, and stops
with a fault if they are nested too deeply there. -/
theorem Derives.readsOn {layer : Layer} {ts : List Token} {t : Tree} (h : Derives layer ts t)
    (frames : List Frame) (rest : List Token) (hplace : layer.mayStand frames = true)
    (hdepth : depth frames ≤ maxDepth) :
    (depth frames + t.nesting ≤ maxDepth → ReadsOn frames ts rest t layer) ∧
      (maxDepth < depth frames + t.nesting →
        (readOperand frames (ts ++ rest)).isComplete = false) := by
  induction h generalizing frames rest with
  | number | dice =>
    refine ⟨fun _ => ?_, fun hdeep => ?_⟩
    · rw [ReadsOn, List.singleton_append, readOperand]
    · rw [Tree.nesting] at hdeep
      omega
  | @signed s ts t h ih =>
    rw [List.cons_append, readOperand, Tree.nesting]
    by_cases hlt : depth frames < maxDepth
    · have hlevel : depth (.signed s :: frames) = depth frames + 1 := depth_cons _ _
      obtain ⟨hfits, hdeep⟩ := ih (.signed s :: frames) rest rfl (by omega)
      rw [ReadsOn, List.cons_append, readOperand, readOperand_level hlt]
      exact ⟨fun hle => hfits (by omega), fun hgt => hdeep (by omega)⟩
    · exact ⟨fun hle => by omega, fun _ => isComplete_openLevel hlt _ _⟩
  | @group ts t h ih =>
    have htokens : Token.opening :: (ts ++ [.closing]) ++ rest =
        .opening :: (ts ++ .closing :: rest) := by
      rw [List.cons_append, List.append_assoc, List.singleton_append]
    rw [ReadsOn, htokens, readOperand, Tree.nesting]
    by_cases hlt : depth frames < maxDepth
    · have hlevel : depth (.group :: frames) = depth frames + 1 := depth_cons _ _
      obtain ⟨hfits, hdeep⟩ := ih (.group :: frames) (.closing :: rest) rfl (by omega)
      rw [readOperand_level hlt]
      refine ⟨fun hle => ?_, fun hgt => hdeep (by omega)⟩
      obtain ⟨t', frames', hclose, hread⟩ := hfits (by omega)
      rw [hread, readOperator, hclose]
    · exact ⟨fun hle => by omega, fun _ => isComplete_openLevel hlt _ _⟩
  | factor h ih =>
    obtain ⟨hfits, hdeep⟩ := ih frames rest rfl hdepth
    refine ⟨fun hle => ?_, hdeep⟩
    have hread := hfits hle
    rw [ReadsOn, closeFactor_of_mayStand hplace] at hread
    exact hread
  | @product ls rs l r s hl hr ihl ihr =>
    have htokens : ls ++ .scale s :: rs ++ rest = ls ++ .scale s :: (rs ++ rest) := by
      rw [List.append_assoc, List.cons_append]
    have hlevel : depth (.product l s :: frames) = depth frames := depth_cons _ _
    obtain ⟨hlfits, hldeep⟩ := ihl frames (.scale s :: (rs ++ rest)) hplace hdepth
    obtain ⟨hrfits, hrdeep⟩ := ihr (.product l s :: frames) rest rfl (by omega)
    rw [ReadsOn, htokens, Tree.nesting]
    by_cases hle : depth frames + l.nesting ≤ maxDepth
    · have hread := hlfits hle
      rw [ReadsOn] at hread
      rw [hread, readOperator]
      exact ⟨fun hfits => hrfits (by omega), fun hgt => hrdeep (by omega)⟩
    · exact ⟨fun hfits => by omega, fun _ => hldeep (by omega)⟩
  | term h ih =>
    obtain ⟨hfits, hdeep⟩ := ih frames rest (mayStand_product_of_sum hplace) hdepth
    exact ⟨fun hle => ⟨_, frames, closeTerm_of_mayStand hplace _, hfits hle⟩, hdeep⟩
  | @sum ls rs l r s hl hr ihl ihr =>
    have htokens : ls ++ .sign s :: rs ++ rest = ls ++ .sign s :: (rs ++ rest) := by
      rw [List.append_assoc, List.cons_append]
    have hlevel : depth (.sum l s :: frames) = depth frames := depth_cons _ _
    obtain ⟨hlfits, hldeep⟩ := ihl frames (.sign s :: (rs ++ rest)) hplace hdepth
    obtain ⟨hrfits, hrdeep⟩ := ihr (.sum l s :: frames) rest rfl (by omega)
    rw [ReadsOn, htokens, Tree.nesting]
    by_cases hle : depth frames + l.nesting ≤ maxDepth
    · obtain ⟨t', frames', hclose, hread⟩ := hlfits hle
      rw [hread, readOperator, hclose]
      exact ⟨fun hfits => ⟨r, .sum l s :: frames, rfl, hrfits (by omega)⟩,
        fun hgt => hrdeep (by omega)⟩
    · exact ⟨fun hfits => by omega, fun _ => hldeep (by omega)⟩

/-- **The tree of a list of tokens is read from it**, if it is not nested too deeply. -/
theorem parse_of_derives {ts : List Token} {t : Tree} (h : Derives .sum ts t)
    (hfits : t.nesting ≤ maxDepth) : parse ts = t := by
  obtain ⟨t', frames', hclose, hread⟩ :=
    (h.readsOn [] [] rfl (Nat.zero_le _)).1 (by rw [depth_nil, Nat.zero_add]; exact hfits)
  rw [List.append_nil] at hread
  rw [parse, hread, readOperator, hclose]

/-- The tree that is read has a fault, if the derived tree is nested too deeply. -/
theorem isComplete_parse_of_derives {ts : List Token} {t : Tree} (h : Derives .sum ts t)
    (hdeep : maxDepth < t.nesting) : (parse ts).isComplete = false := by
  have hread := (h.readsOn [] [] rfl (Nat.zero_le _)).2
    (by rw [depth_nil, Nat.zero_add]; exact hdeep)
  rw [List.append_nil] at hread
  exact hread

/-- **What the grammar derives is read from its text**, if its tokens are legible and it is not
nested too deeply. -/
theorem parseText_of_derives {ts : List Token} {t : Tree} (h : Derives .sum ts t)
    (hlegible : AreLegible ts) (hfits : t.nesting ≤ maxDepth) :
    parseText (String.ofList (ts.flatMap Token.chars)) = .ok t := by
  rw [parseText, tokens_of_areLegible hlegible h.apart h.ne_nil]
  exact congrArg Except.ok (parse_of_derives h hfits)

/-! ### Soundness -/

/-- The tokens that have opened a stack of frames, the innermost frame being the first. -/
inductive Opens : List Frame → List Token → Prop
  /-- Nothing is open at the start. -/
  | nil : Opens [] []
  /-- A sum waits for its right term. -/
  | sum {frames : List Frame} {pre ls : List Token} {l : Tree} (s : Sign) (h : Opens frames pre)
      (hplace : Layer.sum.mayStand frames = true) (hl : Derives .sum ls l) :
    Opens (.sum l s :: frames) (pre ++ (ls ++ [.sign s]))
  /-- A product waits for its right factor. -/
  | product {frames : List Frame} {pre ls : List Token} {l : Tree} (s : Scale)
      (h : Opens frames pre) (hplace : Layer.product.mayStand frames = true)
      (hl : Derives .product ls l) : Opens (.product l s :: frames) (pre ++ (ls ++ [.scale s]))
  /-- A sign waits for its factor. -/
  | signed {frames : List Frame} {pre : List Token} (s : Sign) (h : Opens frames pre) :
    Opens (.signed s :: frames) (pre ++ [.sign s])
  /-- A parenthesis waits for its expression. -/
  | group {frames : List Frame} {pre : List Token} (h : Opens frames pre) :
    Opens (.group :: frames) (pre ++ [.opening])

/-- The tokens that have been read opened the frames, and then gave a tree of a layer. -/
def Stands (layer : Layer) (frames : List Frame) (t : Tree) (read : List Token) : Prop :=
  ∃ pre mid, pre ++ mid = read ∧ Opens frames pre ∧ Derives layer mid t ∧
    layer.mayStand frames = true

/-- A finished factor is a product once the frames that it ends are closed. -/
theorem Opens.stands_closeFactor {frames : List Frame} {pre : List Token} (h : Opens frames pre)
    {mid : List Token} {t : Tree} (ht : Derives .factor mid t) :
    Stands .product (closeFactor t frames).2 (closeFactor t frames).1 (pre ++ mid) := by
  induction h generalizing mid t with
  | nil => exact ⟨[], mid, rfl, .nil, .factor ht, rfl⟩
  | sum s h hplace hl => exact ⟨_, mid, rfl, .sum s h hplace hl, .factor ht, rfl⟩
  | @product frames pre ls l s h hplace hl =>
    refine ⟨pre, ls ++ .scale s :: mid, ?_, h, .product s hl ht, hplace⟩
    rw [List.append_assoc, List.append_assoc, List.singleton_append]
  | signed s h ih =>
    rw [List.append_assoc, List.singleton_append]
    exact ih (.signed s ht)
  | group h => exact ⟨_, mid, rfl, .group h, .factor ht, rfl⟩

/-- A finished product is a sum once the frame that it ends is closed. -/
theorem Stands.closeTerm {frames : List Frame} {t : Tree} {read : List Token}
    (h : Stands .product frames t read) :
    Stands .sum (closeTerm t frames).2 (closeTerm t frames).1 read := by
  obtain ⟨pre, mid, rfl, hopens, ht, hplace⟩ := h
  cases hopens with
  | nil => exact ⟨[], mid, rfl, .nil, .term ht, rfl⟩
  | @sum frames pre ls l s h hsum hl =>
    refine ⟨pre, ls ++ .sign s :: mid, ?_, h, .sum s hl ht, hsum⟩
    rw [List.append_assoc, List.append_assoc, List.singleton_append]
  | product s h hproduct hl => cases hplace
  | signed s h => cases hplace
  | group h => exact ⟨_, mid, rfl, .group h, .term ht, rfl⟩

theorem isComplete_stopAfter (t : Tree) (frames : List Frame) (inside outside : Fault) :
    (stopAfter t frames inside outside).isComplete = false := by
  unfold stopAfter
  split
  · exact isComplete_fill_stopped _ _ _
  · exact isComplete_fill_stopped _ _ _

/-- What an invariant of reading says of a tree: it has a fault, or it is a tree of the tokens. -/
def Derived (ts : List Token) (t : Tree) : Prop := t.isComplete = true → Derives .sum ts t

theorem Derived.of_not_isComplete {ts : List Token} {t : Tree} (h : t.isComplete = false) :
    Derived ts t := by
  intro hcomplete
  rw [h] at hcomplete
  cases hcomplete

/-- **The reader keeps to the grammar**: all tokens that it has read are accounted for by the open
frames and by the tree before the place of reading. -/
theorem derived_of_read (ts : List Token) :
    (∀ frames pre, Opens frames pre → Derived (pre ++ ts) (readOperand frames ts)) ∧
      ∀ t frames read, Stands .product frames t read →
        Derived (read ++ ts) (readOperator t frames ts) := by
  induction ts with
  | nil =>
    refine ⟨?_, ?_⟩
    · intro frames pre _
      rw [readOperand]
      exact .of_not_isComplete (isComplete_fill_fault _ _)
    · intro t frames read hstands
      have hclosed := hstands.closeTerm
      rw [readOperator]
      generalize closeTerm t frames = closed at hclosed ⊢
      obtain ⟨t', _ | ⟨f, frames'⟩⟩ := closed
      · obtain ⟨pre, mid, rfl, hopens, ht, -⟩ := hclosed
        cases hopens
        rw [List.append_nil]
        exact fun _ => ht
      · exact .of_not_isComplete (isComplete_fill_stopped _ _ _)
  | cons token ts ih =>
    obtain ⟨ihOperand, ihOperator⟩ := ih
    refine ⟨?_, ?_⟩
    · intro frames pre hopens
      rw [List.append_cons]
      cases token with
      | number ds =>
        rw [readOperand]
        exact ihOperator _ _ _ (hopens.stands_closeFactor (.number ds))
      | dice count letter faces =>
        rw [readOperand]
        exact ihOperator _ _ _ (hopens.stands_closeFactor (.dice count letter faces))
      | sign s =>
        rw [readOperand]
        by_cases hlt : depth frames < maxDepth
        · rw [readOperand_level hlt]
          exact ihOperand _ _ (.signed s hopens)
        · exact .of_not_isComplete (isComplete_openLevel hlt _ _)
      | opening =>
        rw [readOperand]
        by_cases hlt : depth frames < maxDepth
        · rw [readOperand_level hlt]
          exact ihOperand _ _ (.group hopens)
        · exact .of_not_isComplete (isComplete_openLevel hlt _ _)
      | scale s =>
        rw [readOperand]
        exact .of_not_isComplete (isComplete_fill_fault _ _)
      | closing =>
        rw [readOperand]
        exact .of_not_isComplete (isComplete_fill_fault _ _)
    · intro t frames read hstands
      have hclosed := hstands.closeTerm
      cases token with
      | scale s =>
        obtain ⟨pre, mid, rfl, hopens, ht, hplace⟩ := hstands
        rw [readOperator, List.append_cons, List.append_assoc pre]
        exact ihOperand _ _ (.product s hopens hplace ht)
      | sign s =>
        obtain ⟨pre, mid, rfl, hopens, ht, hplace⟩ := hclosed
        rw [readOperator, List.append_cons, List.append_assoc pre]
        exact ihOperand _ _ (.sum s hopens hplace ht)
      | closing =>
        rw [readOperator]
        generalize closeTerm t frames = closed at hclosed ⊢
        obtain ⟨t', _ | ⟨f, frames'⟩⟩ := closed
        · exact .of_not_isComplete (isComplete_fill_stopped _ _ _)
        · obtain ⟨pre, mid, rfl, hopens, ht, -⟩ := hclosed
          cases hopens with
          | @group _ pre h =>
            have htokens : pre ++ [Token.opening] ++ mid ++ .closing :: ts =
                pre ++ (.opening :: (mid ++ [.closing])) ++ ts := by
              simp only [List.append_assoc, List.cons_append, List.nil_append]
            rw [htokens]
            exact ihOperator _ _ _ (h.stands_closeFactor (.group ht))
          | sum | product | signed => exact .of_not_isComplete (isComplete_fill_stopped _ _ _)
      | number | dice | opening =>
        rw [readOperator]
        · exact .of_not_isComplete (isComplete_stopAfter _ _ _ _)
        all_goals intros; contradiction

/-- **A tree without a fault is a tree of the tokens it was read from**, and is not nested too
deeply. -/
theorem derives_of_parse {ts : List Token} (h : (parse ts).isComplete = true) :
    Derives .sum ts (parse ts) ∧ (parse ts).nesting ≤ maxDepth := by
  have hderives : Derives .sum ts (parse ts) := (derived_of_read ts).1 [] [] .nil h
  refine ⟨hderives, Nat.not_lt.1 ?_⟩
  intro hdeep
  rw [isComplete_parse_of_derives hderives hdeep] at h
  cases h

end Tabletop.Dice
