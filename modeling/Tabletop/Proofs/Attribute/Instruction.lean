import Mathlib.Data.List.TakeWhile
import Tabletop.Attribute.Reader
import Tabletop.Proofs.Text.Classes

/-!
# Written instructions

An instruction is a name, an operator and a chain of terms, as in `hp+1d6-2`.  Instructions may be
written one directly behind the other, although the letter of a dice term may also stand in a name:
a name is followed by an operator, so no letter of it has a numeral behind it.

## Main definitions

* `Numeral`, `Term`, `Operator`, `Instruction` — what may be written, with how it is written.
* `Instruction.pair` — the pair that an instruction is to be read as.
* `Follows` — what may stand behind a chain of terms.

## Main results

* `pairAfter_name` — a name goes on to its last letter.
* `pair?_append` — an instruction is read as it was written.
* `pairs?_flatMap_chars` — **instructions in a row are read as they were written.**
-/

namespace Tabletop.Attribute

open Text

/-! ### What is written -/

/-- A run of one to nine digits. -/
structure Numeral where
  digits : List Char
  isNumeral : isNumeral digits = true
  isDigit : ∀ c ∈ digits, isDigit c = true

/-- A number, or dice with a number of faces. -/
inductive Term where
  /-- A number. -/
  | number (n : Numeral)
  /-- Dice, perhaps with a count. -/
  | dice (count : Option Numeral) (letter : { c : Char // Dice.isDiceLetter c = true })
    (faces : Numeral)

/-- How a term is written. -/
def Term.chars : Term → List Char
  | number n => n.digits
  | dice count letter faces => (count.map Numeral.digits).getD [] ++ letter.1 :: faces.digits

/-- What may stand between a name and a chain of terms. -/
inductive Operator where
  | plus
  | minus
  | colon
  | wideColon
  deriving DecidableEq, Repr

/-- The character of an operator. -/
def Operator.symbol : Operator → Char
  | plus => '+'
  | minus => '-'
  | colon => ':'
  | wideColon => '：'

/-- What an operator does. -/
def Operator.kind : Operator → Kind
  | plus => .add
  | minus => .subtract
  | colon => .set
  | wideColon => .set

/-- A name, an operator and a chain of terms. -/
structure Instruction where
  name : List Char
  named : name ≠ []
  isName : ∀ c ∈ name, isNameChar c = true
  operator : Operator
  first : Term
  /-- The further terms, each behind the sign that joins it. -/
  more : List (Dice.Sign × Term)

/-- How further terms are written. -/
def moreChars (more : List (Dice.Sign × Term)) : List Char :=
  more.flatMap fun p => p.1.symbol :: p.2.chars

namespace Instruction

/-- How the chain of terms is written. -/
def chain (i : Instruction) : List Char := i.first.chars ++ moreChars i.more

/-- How the instruction is written. -/
def chars (i : Instruction) : List Char := i.name ++ i.operator.symbol :: i.chain

/-- The amount: the number if the chain is a single number, else the chain as it was written. -/
def amount (i : Instruction) : Amount :=
  match i.first, i.more with
  | .number n, [] => .literal (numeralValue n.digits)
  | _, _ => .expression (String.ofList i.chain)

/-- The pair that the instruction is to be read as. -/
def pair (i : Instruction) : Pair := ⟨i.name, i.operator.kind, i.amount⟩

end Instruction

/-! ### Characters -/

theorem isNameChar_iff {c : Char} :
    isNameChar c = true ↔
      (0x61 ≤ c.toNat ∧ c.toNat ≤ 0x7A) ∨ (0x41 ≤ c.toNat ∧ c.toNat ≤ 0x5A) ∨
        (0x4E00 ≤ c.toNat ∧ c.toNat ≤ 0x9FFF) := by
  simp only [isNameChar, isSmall, isCapital, isIdeograph, Bool.or_eq_true, Bool.and_eq_true,
    decide_eq_true_eq, or_assoc]

theorem isDigit_eq_false_of_isNameChar {c : Char} (h : isNameChar c = true) :
    isDigit c = false := by
  have hapart : ∀ z ∈ digitZeros, z + 10 ≤ 0x41 ∨ (0x5A < z ∧ z + 10 ≤ 0x61) ∨
      (0x7A < z ∧ z + 10 ≤ 0x4E00) ∨ 0x9FFF < z := by decide
  have hname := isNameChar_iff.1 h
  rw [Bool.eq_false_iff]
  intro hdigit
  obtain ⟨z, hz, hzero, hnine⟩ := isDigit_iff.1 hdigit
  have := hapart z hz
  omega

theorem isBlank_eq_false_of_isNameChar {c : Char} (h : isNameChar c = true) :
    isBlank c = false := by
  have hapart : ∀ r ∈ blankRanges, r.last < 0x41 ∨ (0x7A < r.first ∧ r.last < 0x4E00) ∨
      0x9FFF < r.first := by decide
  have hname := isNameChar_iff.1 h
  rw [Bool.eq_false_iff]
  intro hblank
  obtain ⟨r, hr, hfirst, hlast⟩ := inRanges_iff.1 hblank
  have := hapart r hr
  omega

/-- The characters that have a meaning of their own in a directive. -/
def marks : List Char := ['+', '-', ':', '：', '=', '/', '*', '|']

/-- A mark is neither a digit nor in a name. -/
theorem classes_of_mem_marks {c : Char} (h : c ∈ marks) :
    isDigit c = false ∧ isNameChar c = false := by
  have hall : marks.all (fun c => !isDigit c && !isNameChar c) = true := by decide
  have hc := List.all_eq_true.1 hall c h
  simp only [Bool.and_eq_true, Bool.not_eq_true'] at hc
  exact hc

theorem not_mem_marks_of_isNameChar {c : Char} (h : isNameChar c = true) : c ∉ marks := by
  intro hc
  rw [(classes_of_mem_marks hc).2] at h
  cases h

theorem not_mem_marks_of_isDigit {c : Char} (h : isDigit c = true) : c ∉ marks := by
  intro hc
  rw [(classes_of_mem_marks hc).1] at h
  cases h

theorem Operator.symbol_mem_marks (o : Operator) : o.symbol ∈ marks := by
  cases o with
  | plus | minus | colon | wideColon => decide

theorem symbol_mem_marks (s : Dice.Sign) : s.symbol ∈ marks := by
  cases s with
  | plus | minus => decide

theorem kindOf?_symbol (o : Operator) : kindOf? o.symbol = some o.kind := by
  cases o with
  | plus | minus | colon | wideColon => rfl

theorem kindOf?_eq_none {c : Char} (h : c ∉ marks) : kindOf? c = none := by
  simp only [marks, List.mem_cons, not_or] at h
  obtain ⟨h₁, h₂, h₃, h₄, -⟩ := h
  simp only [kindOf?, h₁, h₂, h₃, h₄, if_false, decide_false, Bool.or_self, Bool.false_eq_true]

theorem isJoin_symbol (s : Dice.Sign) : isJoin s.symbol = true := by
  cases s with
  | plus | minus => rfl

/-! ### Reading terms -/

/-- A term ends here: no digit and no number of faces follows. -/
structure EndsTerm (rest : List Char) : Prop where
  digit : ∀ c ∈ rest.head?, isDigit c = false
  faces : faces? rest = none

/-- A chain of terms ends here: no sign follows that would join a further term. -/
structure Follows (rest : List Char) : Prop extends EndsTerm rest where
  join : ∀ c ∈ rest.head?, isJoin c = false

theorem follows_nil : Follows [] where
  digit := fun _ h => by cases h
  faces := rfl
  join := fun _ h => by cases h

theorem span_digits {ds rest : List Char} (hds : ∀ c ∈ ds, isDigit c = true)
    (hrest : ∀ c ∈ rest.head?, isDigit c = false) :
    (ds ++ rest).takeWhile isDigit = ds ∧ (ds ++ rest).dropWhile isDigit = rest := by
  rw [List.takeWhile_append_of_pos hds, List.dropWhile_append_of_pos hds]
  cases rest with
  | nil => exact ⟨List.append_nil ds, rfl⟩
  | cons c rest =>
    have hc : ¬isDigit c = true := ne_true_of_eq_false (hrest c rfl)
    rw [List.takeWhile_cons_of_neg hc, List.dropWhile_cons_of_neg hc, List.append_nil]
    exact ⟨rfl, rfl⟩

theorem takeWhile_isDigit_eq_nil {cs : List Char} (h : ∀ c ∈ cs.head?, isDigit c = false) :
    cs.takeWhile isDigit = [] := (span_digits (List.forall_mem_nil _) h).1

/-- A dice letter has no number of faces if no digit stands behind it. -/
theorem faces?_eq_none {c : Char} {rest : List Char} (h : ∀ d ∈ rest.head?, isDigit d = false) :
    faces? (c :: rest) = none := by
  simp only [faces?, takeWhile_isDigit_eq_nil h]
  rw [if_neg]
  intro hnumeral
  rw [Bool.and_eq_true] at hnumeral
  exact Bool.false_ne_true hnumeral.2

theorem Numeral.isEmpty_eq_false (n : Numeral) : n.digits.isEmpty = false := by
  have h := n.isNumeral
  simp only [Attribute.isNumeral, Bool.and_eq_true, decide_eq_true_eq] at h
  rw [List.isEmpty_eq_false_iff]
  intro hnil
  rw [hnil] at h
  exact absurd h.1 (by decide)

theorem faces?_append {letter : Char} (hletter : Dice.isDiceLetter letter = true)
    (faces : Numeral) {rest : List Char} (hrest : ∀ c ∈ rest.head?, isDigit c = false) :
    faces? (letter :: (faces.digits ++ rest)) = some (letter :: faces.digits, rest) := by
  obtain ⟨htake, hdrop⟩ := span_digits faces.isDigit hrest
  simp only [faces?, htake, hdrop, hletter, faces.isNumeral, Bool.and_self, if_true]

/-- **A term is read as it was written**, where it ends. -/
theorem term?_append (t : Term) {rest : List Char} (h : EndsTerm rest) :
    term? (t.chars ++ rest) = some (t.chars, rest) := by
  cases t with
  | number n =>
    obtain ⟨htake, hdrop⟩ := span_digits n.isDigit h.digit
    rw [Term.chars]
    simp only [term?, htake, hdrop, n.isEmpty_eq_false, n.isNumeral, h.faces, Bool.false_eq_true,
      if_false, if_true]
  | dice count letter faces =>
    have hletter : ∀ c ∈ (letter.1 :: (faces.digits ++ rest)).head?, isDigit c = false := by
      intro c hc
      cases hc
      exact (Dice.not_isBlank_of_isDiceLetter letter.2).2
    have hfaces := faces?_append letter.2 faces h.digit
    rw [Term.chars, List.append_assoc, List.cons_append]
    cases count with
    | none =>
      simp only [Option.map_none, Option.getD_none, List.nil_append, term?,
        takeWhile_isDigit_eq_nil hletter, List.isEmpty_nil, if_true, hfaces]
    | some n =>
      obtain ⟨htake, hdrop⟩ := span_digits n.isDigit hletter
      simp only [Option.map_some, Option.getD_some, term?, htake, hdrop, n.isEmpty_eq_false,
        n.isNumeral, hfaces, Bool.false_eq_true, if_false, if_true]

theorem endsTerm_symbol (s : Dice.Sign) (rest : List Char) : EndsTerm (s.symbol :: rest) where
  digit := by
    intro c hc
    cases hc
    exact (classes_of_mem_marks (symbol_mem_marks s)).1
  faces := by
    cases s with
    | plus | minus => rfl

theorem endsTerm_moreChars (more : List (Dice.Sign × Term)) {rest : List Char}
    (h : EndsTerm rest) : EndsTerm (moreChars more ++ rest) := by
  cases more with
  | nil => exact h
  | cons p more =>
    rw [moreChars, List.flatMap_cons, List.cons_append, List.cons_append]
    exact endsTerm_symbol p.1 _

theorem moreTerms_of_follows {rest : List Char} (h : Follows rest) :
    moreTerms rest = ([], rest) := by
  cases rest with
  | nil => rw [moreTerms]
  | cons c rest =>
    rw [moreTerms, if_neg (ne_true_of_eq_false (h.join c rfl))]

theorem moreTerms_append (more : List (Dice.Sign × Term)) {rest : List Char} (h : Follows rest) :
    moreTerms (moreChars more ++ rest) = (moreChars more, rest) := by
  induction more with
  | nil => exact moreTerms_of_follows h
  | cons p more ih =>
    have hterm := term?_append p.2 (endsTerm_moreChars more h.toEndsTerm)
    have hchars : moreChars (p :: more) ++ rest =
        p.1.symbol :: (p.2.chars ++ (moreChars more ++ rest)) := by
      rw [moreChars, List.flatMap_cons, List.cons_append, List.cons_append, List.append_assoc]
      rfl
    rw [hchars, moreTerms, if_pos (isJoin_symbol p.1)]
    split
    · next term rest' hsome =>
      rw [hterm] at hsome
      cases hsome
      rw [ih]
      rfl
    · next hnone =>
      rw [hterm] at hnone
      cases hnone

/-- **A chain of terms is read as it was written**, where it ends. -/
theorem chain?_append (i : Instruction) {rest : List Char} (h : Follows rest) :
    chain? (i.chain ++ rest) = some (i.chain, rest) := by
  have hterm := term?_append i.first (endsTerm_moreChars i.more h.toEndsTerm)
  rw [Instruction.chain, List.append_assoc, chain?, hterm]
  simp only [moreTerms_append i.more h]

/-! ### Amounts -/

theorem Term.all_isDigit (t : Term) :
    t.chars.all isDigit = match t with | .number _ => true | .dice _ _ _ => false := by
  cases t with
  | number n => exact List.all_eq_true.2 n.isDigit
  | dice count letter faces =>
    have hletter := (Dice.not_isBlank_of_isDiceLetter letter.2).2
    rw [Term.chars, List.all_append, List.all_cons, hletter, Bool.false_and, Bool.and_false]

/-- A chain has digits only if it is a single number. -/
theorem amountOf_chain (i : Instruction) : amountOf i.chain = i.amount := by
  have hall := i.first.all_isDigit
  rw [amountOf, Instruction.amount, Instruction.chain, List.all_append]
  rcases hmore : i.more with _ | ⟨⟨s, t⟩, more⟩
  · rcases hfirst : i.first with n | ⟨count, letter, faces⟩
    · rw [hfirst] at hall
      rw [hall]
      simp only [moreChars, List.flatMap_nil, List.all_nil, Bool.and_self, if_true,
        List.append_nil]
      rfl
    · rw [hfirst] at hall
      rw [hall]
      rfl
  · have hsymbol : isDigit s.symbol = false := (classes_of_mem_marks (symbol_mem_marks s)).1
    rw [moreChars, List.flatMap_cons, List.cons_append, List.all_cons, hsymbol, Bool.false_and,
      Bool.and_false]
    rcases i.first with n | ⟨count, letter, faces⟩
    · rfl
    · rfl

theorem amount?_append (i : Instruction) {rest : List Char} (h : Follows rest) :
    amount? (i.operator.symbol :: (i.chain ++ rest)) =
      some ((i.operator.kind, i.amount), rest) := by
  simp only [amount?, kindOf?_symbol, chain?_append i h, Option.map_some, amountOf_chain]

/-- No amount is read where the name goes on: even a dice letter has no digit behind it. -/
theorem amount?_eq_none {c : Char} (hc : isNameChar c = true) {rest : List Char}
    (h : ∀ d ∈ rest.head?, isDigit d = false) : amount? (c :: rest) = none := by
  have hdigit := isDigit_eq_false_of_isNameChar hc
  have hkind := kindOf?_eq_none (not_mem_marks_of_isNameChar hc)
  have htake : (c :: rest).takeWhile isDigit = [] :=
    List.takeWhile_cons_of_neg (ne_true_of_eq_false hdigit)
  have hterm : term? (c :: rest) = none := by
    simp only [term?, htake, List.isEmpty_nil, if_true]
    exact faces?_eq_none h
  simp only [amount?, hkind, hterm, Option.map_none]

/-! ### Pairs -/

theorem head_name_append {name rest : List Char} (hname : ∀ c ∈ name, isNameChar c = true)
    (hrest : ∀ d ∈ rest.head?, isDigit d = false) :
    ∀ d ∈ (name ++ rest).head?, isDigit d = false := by
  cases name with
  | nil => exact hrest
  | cons c name =>
    intro d hd
    cases hd
    exact isDigit_eq_false_of_isNameChar (hname _ List.mem_cons_self)

theorem head_operator (o : Operator) (rest : List Char) :
    ∀ d ∈ (o.symbol :: rest).head?, isDigit d = false := by
  intro d hd
  cases hd
  exact (classes_of_mem_marks o.symbol_mem_marks).1

/-- **A name goes on to its last letter**, unless a digit stands behind that: before it no amount
can be read, since even a dice letter needs a digit. -/
theorem pairAfter_name (before : List Char) {after rest : List Char}
    (hafter : ∀ d ∈ after, isNameChar d = true) (hrest : ∀ d ∈ rest.head?, isDigit d = false) :
    pairAfter before (after ++ rest) = pairAfter (before ++ after) rest := by
  induction after generalizing before with
  | nil => rw [List.nil_append, List.append_nil]
  | cons c after ih =>
    rw [List.forall_mem_cons] at hafter
    have hnone : (if before.isEmpty then none else amount? (c :: (after ++ rest))) = none := by
      split
      · rfl
      · exact amount?_eq_none hafter.1 (head_name_append hafter.2 hrest)
    rw [List.cons_append, pairAfter, hnone]
    simp only [hafter.1, if_true]
    rw [ih (before ++ [c]) hafter.2, List.append_assoc, List.singleton_append]

/-- **The name of an instruction ends where it was written to end**, and the operator and the chain
behind it are read whole. -/
theorem pair?_append (i : Instruction) {rest : List Char} (h : Follows rest) :
    pair? (i.chars ++ rest) = some (i.pair, rest) := by
  have hempty : i.name.isEmpty = false := List.isEmpty_eq_false_iff.2 i.named
  rw [pair?, Instruction.chars, List.append_assoc, List.cons_append,
    pairAfter_name [] i.isName (head_operator _ _), List.nil_append, pairAfter, hempty,
    amount?_append i h]
  rfl

theorem Instruction.follows (i : Instruction) (rest : List Char) : Follows (i.chars ++ rest) := by
  rcases hname : i.name with _ | ⟨c, name⟩
  · exact absurd hname i.named
  have hall : ∀ d ∈ c :: name, isNameChar d = true := hname ▸ i.isName
  have hc := hall c List.mem_cons_self
  have hchars : i.chars ++ rest = c :: (name ++ i.operator.symbol :: (i.chain ++ rest)) := by
    rw [Instruction.chars, hname, List.append_assoc, List.cons_append, List.cons_append]
  rw [hchars]
  refine ⟨⟨?_, ?_⟩, ?_⟩
  · intro d hd
    cases hd
    exact isDigit_eq_false_of_isNameChar hc
  · exact faces?_eq_none
      (head_name_append (fun d hd => hall d (List.mem_cons_of_mem c hd)) (head_operator _ _))
  · intro d hd
    cases hd
    have hmarks := not_mem_marks_of_isNameChar hc
    simp only [marks, List.mem_cons, not_or] at hmarks
    simp only [isJoin, beq_eq_false_iff_ne.2 hmarks.1, beq_eq_false_iff_ne.2 hmarks.2.1,
      Bool.or_self]

theorem follows_flatMap_chars (l : List Instruction) : Follows (l.flatMap Instruction.chars) := by
  cases l with
  | nil => exact follows_nil
  | cons i l => exact i.follows _

theorem Instruction.chars_ne_nil (i : Instruction) : i.chars ≠ [] :=
  List.append_ne_nil_of_left_ne_nil i.named _

theorem pairs?_of_pair? {cs rest : List Char} {p : Pair} (h : pair? cs = some (p, rest)) :
    pairs? cs = (pairs? rest).map (p :: ·) := by
  cases cs with
  | nil => cases h
  | cons c cs =>
    rw [pairs?]
    split
    · next hsome =>
      rw [h] at hsome
      cases hsome
      rfl
    · next hnone =>
      rw [h] at hnone
      cases hnone

/-- **Instructions in a row are read as they were written.** -/
theorem pairs?_flatMap_chars (l : List Instruction) :
    pairs? (l.flatMap Instruction.chars) = some (l.map Instruction.pair) := by
  induction l with
  | nil => rw [List.flatMap_nil, pairs?, List.map_nil]
  | cons i l ih =>
    rw [List.flatMap_cons, pairs?_of_pair? (pair?_append i (follows_flatMap_chars l)), ih]
    rfl

end Tabletop.Attribute
