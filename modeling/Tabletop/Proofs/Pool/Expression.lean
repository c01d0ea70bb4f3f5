import Tabletop.Pool.Roll
import Tabletop.Proofs.Dice.Roll
import Tabletop.Proofs.Pool.Filling

/-!
# Expressions over the attributes of a card

A pool may be given by an expression whose operands are numbers, dice and spellings of attributes.
What it means is said without looking at its text: each spelling is a single operand, with the value
of the attribute.  The text is read in another way.  The values are written into it, and then it is
read as a dice expression.  The two agree, because no value runs into its neighbours; a negative
value is read as a sign with a number behind it, which only counts as one more level of nesting.

## Main definitions

* `Expression` — expressions over a card, by the layers of the grammar.
* `Expression.chars`, `Expression.eval` — how an expression is written, and what it means.
* `Expression.tokens`, `Expression.tree` — what is read once the values are filled in.
* `Expression.nesting` — how many parentheses and signs are around one another.

## Main results

* `Expression.fill_chars` — **filling in the values writes the tokens of the expression.**
* `Expression.derives` — and these tokens have the tree of the expression.
* `Expression.total_eval_tree` — **the tree has the value of the expression**, with the same dice.
-/

namespace Tabletop.Pool

open Text Attribute Dice

/-! ### What is written and what it means -/

/-- Expressions over the attributes of a card, by the layers of the grammar. -/
inductive Expression (sheet : Sheet) : Layer → Type where
  /-- A number in digits of any script. -/
  | number (digits : List Char) (h : (Token.number digits).isWritten = true) :
    Expression sheet .factor
  /-- Dice; the count and the faces may be left out. -/
  | dice (count : List Char) (letter : Char) (faces : List Char)
      (h : (Token.dice count letter faces).isWritten = true) : Expression sheet .factor
  /-- An attribute of the card. -/
  | spelling (s : Spelling sheet) : Expression sheet .factor
  /-- A factor with a sign before it. -/
  | signed (s : Sign) (e : Expression sheet .factor) : Expression sheet .factor
  /-- An expression in parentheses. -/
  | group (e : Expression sheet .sum) : Expression sheet .factor
  /-- A single factor. -/
  | factor (e : Expression sheet .factor) : Expression sheet .product
  /-- The product or quotient of factors. -/
  | product (l : Expression sheet .product) (s : Scale) (r : Expression sheet .factor) :
    Expression sheet .product
  /-- A single product. -/
  | term (e : Expression sheet .product) : Expression sheet .sum
  /-- The sum or difference of products. -/
  | sum (l : Expression sheet .sum) (s : Sign) (r : Expression sheet .product) :
    Expression sheet .sum

namespace Expression

variable {sheet : Sheet} {layer : Layer}

/-- How an expression is written, without blanks. -/
def chars {layer : Layer} : Expression sheet layer → List Char
  | number ds _ => ds
  | dice count letter faces _ => count ++ letter :: faces
  | spelling s => s.chars
  | signed s e => s.symbol :: e.chars
  | group e => '(' :: (e.chars ++ [')'])
  | factor e => e.chars
  | product l s r => l.chars ++ s.symbol :: r.chars
  | term e => e.chars
  | sum l s r => l.chars ++ s.symbol :: r.chars

/-- What an expression means: the operands are evaluated from left to right, and each spelling is
a single operand with the value of its attribute. -/
def eval {layer : Layer} : Expression sheet layer → Throwing Fault Int
  | number ds _ => pure (numeralValue ds)
  | dice count _ faces _ => do
      let (n, m) ← ExceptT.mk (pure (diceTerm poolFaces (numeral? count) (numeral? faces)))
      let values ← ExceptT.lift (throwDice (Supply.draw m) n)
      pure (values.sum : Nat)
  | spelling s => pure s.value
  | signed s e => s.apply <$> e.eval
  | group e => e.eval
  | factor e => e.eval
  | product l s r => do
      let a ← l.eval
      let b ← r.eval
      ExceptT.mk (pure (s.join a b))
  | term e => e.eval
  | sum l s r => do
      let a ← l.eval
      let b ← r.eval
      ExceptT.mk (pure (s.join a b))

/-- The numerals of the expression have at most nine digits. -/
def fits {layer : Layer} : Expression sheet layer → Bool
  | number ds _ => (Token.number ds).fits
  | dice count letter faces _ => (Token.dice count letter faces).fits
  | spelling _ => true
  | signed _ e => e.fits
  | group e => e.fits
  | factor e => e.fits
  | product l _ r => l.fits && r.fits
  | term e => e.fits
  | sum l _ r => l.fits && r.fits

/-- How many parentheses and signs are around one another, at most, where a spelling counts for some
levels. -/
def nesting (levels : Spelling sheet → Nat) {layer : Layer} : Expression sheet layer → Nat
  | number _ _ => 0
  | dice _ _ _ _ => 0
  | spelling s => levels s
  | signed _ e => e.nesting levels + 1
  | group e => e.nesting levels + 1
  | factor e => e.nesting levels
  | product l _ r => max (l.nesting levels) (r.nesting levels)
  | term e => e.nesting levels
  | sum l _ r => max (l.nesting levels) (r.nesting levels)

/-- The spellings in an expression, from left to right. -/
def spellings {layer : Layer} : Expression sheet layer → List (Spelling sheet)
  | number _ _ => []
  | dice _ _ _ _ => []
  | spelling s => [s]
  | signed _ e => e.spellings
  | group e => e.spellings
  | factor e => e.spellings
  | product l _ r => l.spellings ++ r.spellings
  | term e => e.spellings
  | sum l _ r => l.spellings ++ r.spellings

/-- The nesting depends on the spellings in the expression only. -/
theorem nesting_congr {levels levels' : Spelling sheet → Nat} (e : Expression sheet layer)
    (h : ∀ s ∈ e.spellings, levels s = levels' s) : e.nesting levels = e.nesting levels' := by
  induction e with
  | number | dice => rfl
  | spelling s => exact h s (List.mem_singleton_self s)
  | signed _ e ih | group e ih => rw [nesting, nesting, ih h]
  | factor e ih | term e ih => exact ih h
  | product l _ r ihl ihr | sum l _ r ihl ihr =>
    rw [spellings, List.forall_mem_append] at h
    rw [nesting, nesting, ihl h.1, ihr h.2]

/-- Spellings that count for at most one level make the nesting deeper by at most one. -/
theorem nesting_le_succ {levels : Spelling sheet → Nat} (h : ∀ s, levels s ≤ 1)
    (e : Expression sheet layer) : e.nesting levels ≤ e.nesting (fun _ => 0) + 1 := by
  induction e with
  | number | dice => exact Nat.zero_le _
  | spelling s => exact h s
  | signed _ e ih | group e ih => exact Nat.succ_le_succ ih
  | factor e ih | term e ih => exact ih
  | product l _ r ihl ihr | sum l _ r ihl ihr =>
    simp only [nesting]
    omega

/-- There is a character in every expression. -/
theorem chars_ne_nil (e : Expression sheet layer) : e.chars ≠ [] := by
  induction e with
  | number ds h =>
    rintro rfl
    cases h
  | dice | product | sum => exact List.append_ne_nil_of_right_ne_nil _ (List.cons_ne_nil _ _)
  | spelling s => exact s.chars_ne_nil
  | signed | group => exact List.cons_ne_nil _ _
  | factor _ ih | term _ ih => exact ih

end Expression

/-! ### What is read -/

/-- The tokens of a value. -/
def valueTokens : Int → List Token
  | .ofNat n => [.number (digitsOf n)]
  | .negSucc n => [.sign .minus, .number (digitsOf (n + 1))]

/-- The tree of a value. -/
def valueTree : Int → Tree
  | .ofNat n => .number (digitsOf n)
  | .negSucc n => .signed .minus (.number (digitsOf (n + 1)))

theorem flatMap_chars_valueTokens (v : Int) :
    (valueTokens v).flatMap Token.chars = (intText v).toList := by
  cases v with
  | ofNat n =>
    rw [valueTokens, List.flatMap_singleton]
    exact (toList_intText_natCast n).symm
  | negSucc n =>
    rw [valueTokens, toList_intText_negSucc, List.flatMap_cons, List.flatMap_singleton]
    rfl

theorem derives_value (v : Int) : Derives .factor (valueTokens v) (valueTree v) := by
  cases v with
  | ofNat n => exact .number _
  | negSucc n => exact .signed .minus (.number _)

theorem isWritten_of_mem_valueTokens {v : Int} : ∀ t ∈ valueTokens v, t.isWritten = true := by
  cases v with
  | ofNat n => exact List.forall_mem_singleton.2 (isWritten_number n)
  | negSucc n =>
    exact List.forall_mem_cons.2 ⟨rfl, List.forall_mem_singleton.2 (isWritten_number (n + 1))⟩

theorem all_fits_valueTokens {v : Int} (h : v.natAbs < 10 ^ maxDigits) :
    (valueTokens v).all Token.fits = true := by
  cases v with
  | ofNat n =>
    have hn : (Token.number (digitsOf n)).fits = true := fits_number h
    rw [valueTokens, List.all_cons, hn]
    rfl
  | negSucc n =>
    have hn : (Token.number (digitsOf (n + 1))).fits = true := fits_number h
    rw [valueTokens, List.all_cons, List.all_cons, hn]
    rfl

/-- A value is read as a level of nesting if it is negative. -/
def Spelling.levels {sheet : Sheet} (s : Spelling sheet) : Nat := if s.value < 0 then 1 else 0

theorem nesting_valueTree (v : Int) : (valueTree v).nesting = if v < 0 then 1 else 0 := by
  cases v with
  | ofNat n =>
    have hn : ¬Int.ofNat n < 0 := Int.not_lt.2 (Int.natCast_nonneg n)
    rw [if_neg hn]
    rfl
  | negSucc n =>
    rw [if_pos (Int.negSucc_lt_zero n)]
    rfl

theorem total_eval_valueTree (v usual : Int) (sense : Sense) :
    Reading.total <$> (valueTree v).eval rolled usual sense = pure v := by
  cases v with
  | ofNat n =>
    simp only [valueTree, Tree.eval, map_pure, numeralValue_digitsOf]
    rfl
  | negSucc n =>
    simp only [valueTree, Tree.eval, map_pure, pure_bind, numeralValue_digitsOf]
    rfl

namespace Expression

variable {sheet : Sheet} {layer : Layer}

/-- The tokens that are read once the values are filled in. -/
def tokens {layer : Layer} : Expression sheet layer → List Token
  | number ds _ => [.number ds]
  | dice count letter faces _ => [.dice count letter faces]
  | spelling s => valueTokens s.value
  | signed s e => .sign s :: e.tokens
  | group e => .opening :: (e.tokens ++ [.closing])
  | factor e => e.tokens
  | product l s r => l.tokens ++ .scale s :: r.tokens
  | term e => e.tokens
  | sum l s r => l.tokens ++ .sign s :: r.tokens

/-- The tree that is read once the values are filled in. -/
def tree {layer : Layer} : Expression sheet layer → Tree
  | number ds _ => .number ds
  | dice count _ faces _ => .dice (numeral? count) (numeral? faces)
  | spelling s => valueTree s.value
  | signed s e => .signed s e.tree
  | group e => .group e.tree
  | factor e => e.tree
  | product l s r => .product l.tree s r.tree
  | term e => e.tree
  | sum l s r => .sum l.tree s r.tree

/-- **The tokens of an expression have its tree.** -/
theorem derives (e : Expression sheet layer) : Derives layer e.tokens e.tree := by
  induction e with
  | number ds _ => exact .number ds
  | dice count letter faces _ => exact .dice count letter faces
  | spelling s => exact derives_value s.value
  | signed s e ih => exact .signed s ih
  | group e ih => exact .group ih
  | factor e ih => exact .factor ih
  | product l s r ihl ihr => exact .product s ihl ihr
  | term e ih => exact .term ih
  | sum l s r ihl ihr => exact .sum s ihl ihr

theorem isWritten_of_mem_tokens (e : Expression sheet layer) :
    ∀ t ∈ e.tokens, t.isWritten = true := by
  induction e with
  | number ds h => exact List.forall_mem_singleton.2 h
  | dice count letter faces h => exact List.forall_mem_singleton.2 h
  | spelling s => exact isWritten_of_mem_valueTokens
  | signed s e ih => exact List.forall_mem_cons.2 ⟨rfl, ih⟩
  | group e ih =>
    exact List.forall_mem_cons.2
      ⟨rfl, List.forall_mem_append.2 ⟨ih, List.forall_mem_singleton.2 rfl⟩⟩
  | factor e ih | term e ih => exact ih
  | product l s r ihl ihr =>
    exact List.forall_mem_append.2 ⟨ihl, List.forall_mem_cons.2 ⟨rfl, ihr⟩⟩
  | sum l s r ihl ihr =>
    exact List.forall_mem_append.2 ⟨ihl, List.forall_mem_cons.2 ⟨rfl, ihr⟩⟩

theorem all_fits_tokens (e : Expression sheet layer) : e.tokens.all Token.fits = e.fits := by
  induction e with
  | number | dice => exact Bool.and_true _
  | spelling s => exact all_fits_valueTokens (sheet.short _ s.mem)
  | signed s e ih => exact ih
  | group e ih =>
    rw [tokens, List.all_cons, List.all_append, ih]
    exact Bool.and_true _
  | factor e ih | term e ih => exact ih
  | product l s r ihl ihr | sum l s r ihl ihr =>
    rw [tokens, List.all_append, List.all_cons, ihl, ihr]
    rfl

theorem nesting_tree (e : Expression sheet layer) : e.tree.nesting = e.nesting Spelling.levels := by
  induction e with
  | number | dice => rfl
  | spelling s => exact nesting_valueTree s.value
  | signed s e ih | group e ih => rw [tree, Tree.nesting, nesting, ih]
  | factor e ih | term e ih => exact ih
  | product l s r ihl ihr | sum l s r ihl ihr => rw [tree, Tree.nesting, nesting, ihl, ihr]

/-- **The tree has the value of the expression**, and takes the same dice. -/
theorem total_eval_tree (e : Expression sheet layer) (sense : Sense) :
    Reading.total <$> e.tree.eval rolled poolFaces sense = e.eval := by
  induction e generalizing sense with
  | number ds _ => rfl
  | dice count letter faces _ =>
    simp only [tree, Tree.eval, eval, map_bind, map_pure]
    rfl
  | spelling s => exact total_eval_valueTree s.value poolFaces sense
  | signed s e ih =>
    rw [eval, ← ih (sense.behind s)]
    simp only [tree, Tree.eval, Functor.map_map, bind_pure_comp]
  | group e ih =>
    rw [eval, ← ih sense]
    simp only [tree, Tree.eval, Functor.map_map, bind_pure_comp]
  | factor e ih | term e ih => exact ih sense
  | product l s r ihl ihr =>
    rw [eval, ← ihl sense, ← ihr (sense.under s)]
    simp only [tree, Tree.eval, map_bind, Functor.map_map, bind_pure_comp, bind_map_left, id_map']
    rfl
  | sum l s r ihl ihr =>
    rw [eval, ← ihl sense, ← ihr (sense.behind s)]
    simp only [tree, Tree.eval, map_bind, Functor.map_map, bind_pure_comp, bind_map_left, id_map']
    rfl

/-- **Filling in the values writes the tokens of the expression.** -/
theorem fill_chars (e : Expression sheet layer) {rest : List Char} (hrest : Ends rest) :
    sheet.fill (e.chars ++ rest) = e.tokens.flatMap Token.chars ++ sheet.fill rest := by
  -- What stands behind an operand begins with a sign or a parenthesis, where a name ends.
  induction e generalizing rest with
  | number ds h =>
    have hdigits := isDigit_of_isWritten_number h
    rw [chars, Sheet.fill_outers fun c hc => isOuter_of_isDigit (hdigits c hc), tokens,
      List.flatMap_singleton]
    rfl
  | dice count letter faces h =>
    obtain ⟨hcount, hletter, hfaces⟩ := classes_of_isWritten_dice h
    have hfaces' : ∀ c ∈ faces, IsOuter c := fun c hc => isOuter_of_isDigit (hfaces c hc)
    rw [chars, List.append_assoc, List.cons_append,
      Sheet.fill_outers fun c hc => isOuter_of_isDigit (hcount c hc),
      Sheet.fill_diceLetter hletter (ends_append hfaces' hrest), Sheet.fill_outers hfaces', tokens,
      List.flatMap_singleton, Token.chars, List.append_assoc, List.cons_append]
  | spelling s =>
    rw [chars, Sheet.fill_spelling s hrest, tokens, flatMap_chars_valueTokens]
  | signed s e ih =>
    have hsign := isOuter_of_mem_symbols (mem_symbols_sign s)
    rw [chars, List.cons_append, Sheet.fill_outer hsign, ih hrest]
    rfl
  | group e ih =>
    have hopening : IsOuter '(' := isOuter_of_mem_symbols (by decide)
    have hclosing : IsOuter ')' := isOuter_of_mem_symbols (by decide)
    rw [chars, List.cons_append, List.append_assoc, List.singleton_append,
      Sheet.fill_outer hopening, ih (ends_cons hclosing rest), Sheet.fill_outer hclosing]
    simp [tokens, Token.chars]
  | factor e ih | term e ih => exact ih hrest
  | product l s r ihl ihr =>
    have hscale := isOuter_of_mem_symbols (mem_symbols_scale s)
    rw [chars, List.append_assoc, List.cons_append, ihl (ends_cons hscale _),
      Sheet.fill_outer hscale, ihr hrest]
    simp [tokens, Token.chars]
  | sum l s r ihl ihr =>
    have hsign := isOuter_of_mem_symbols (mem_symbols_sign s)
    rw [chars, List.append_assoc, List.cons_append, ihl (ends_cons hsign _),
      Sheet.fill_outer hsign, ihr hrest]
    simp [tokens, Token.chars]

end Expression

end Tabletop.Pool
