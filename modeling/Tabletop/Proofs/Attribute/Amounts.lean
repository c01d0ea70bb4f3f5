import Tabletop.Attribute.Apply
import Tabletop.Proofs.Attribute.Canonical
import Tabletop.Proofs.Attribute.Setting
import Tabletop.Proofs.Dice.Terms

/-!
# Amounts of directives

The amounts of a directive are read with a grammar of their own, and rolled with that of dice
expressions.  The first is part of the second: whatever text is read, a number in it has at most
nine digits, and an expression is a chain of terms, which is a dice expression.  So rolling an
amount fails only at the limits of dice and of totals.

## Main definitions

* `Term.token`, `chainTokens` — the tokens of a term and of a chain of terms.
* `Amount.IsWritten` — an amount is a number of at most nine digits or a chain of terms.

## Main results

* `term?_eq_some`, `moreTerms_fst`, `chain?_eq_some` — what is read of a chain is a chain.
* `isWritten_of_mem_readWords` — **an operation has an amount that can be written.**
* `parseText_chain` — **a chain of terms is a dice expression**, and a sum of terms.
* `amounts_legible` — the amounts of any text are small numbers or can be rolled.
-/

namespace Tabletop.Attribute

open Text Dice

/-! ### Terms that are read -/

/-- The digits at the start of a text are a numeral if there are at most nine. -/
theorem exists_numeral_of_takeWhile {cs : List Char}
    (h : isNumeral (cs.takeWhile isDigit) = true) :
    ∃ n : Numeral, cs.takeWhile isDigit = n.digits :=
  ⟨⟨cs.takeWhile isDigit, h, fun _ => List.mem_takeWhile_imp⟩, rfl⟩

theorem faces?_eq_some {cs faces rest : List Char} (h : faces? cs = some (faces, rest)) :
    ∃ (letter : { c : Char // isDiceLetter c = true }) (n : Numeral),
      faces = letter.1 :: n.digits := by
  cases cs with
  | nil => cases h
  | cons c cs =>
    simp only [faces?] at h
    split at h
    · next hc =>
      rw [Bool.and_eq_true] at hc
      obtain ⟨n, hn⟩ := exists_numeral_of_takeWhile hc.2
      cases h
      exact ⟨⟨c, hc.1⟩, n, congrArg (c :: ·) hn⟩
    · cases h

/-- **What is read as a term is a term.** -/
theorem term?_eq_some {cs term rest : List Char} (h : term? cs = some (term, rest)) :
    ∃ t : Term, term = t.chars := by
  unfold term? at h
  simp only at h
  split at h
  · obtain ⟨letter, n, rfl⟩ := faces?_eq_some h
    exact ⟨.dice none letter n, rfl⟩
  split at h
  · next hnumeral =>
    obtain ⟨count, hcount⟩ := exists_numeral_of_takeWhile hnumeral
    split at h
    · next faces rest' hfaces =>
      obtain ⟨letter, n, rfl⟩ := faces?_eq_some hfaces
      cases h
      exact ⟨.dice (some count) letter n, congrArg (· ++ letter.1 :: n.digits) hcount⟩
    · cases h
      exact ⟨.number count, hcount⟩
  · cases h

theorem exists_symbol_of_isJoin {c : Char} (h : isJoin c = true) :
    ∃ s : Sign, c = s.symbol := by
  rw [isJoin, Bool.or_eq_true, beq_iff_eq, beq_iff_eq] at h
  rcases h with rfl | rfl
  · exact ⟨.plus, rfl⟩
  · exact ⟨.minus, rfl⟩

/-- What is read as further terms are further terms, each behind a sign. -/
theorem moreTerms_fst (cs : List Char) : ∃ more, (moreTerms cs).1 = moreChars more := by
  fun_induction moreTerms cs with
  | case1 => exact ⟨[], rfl⟩
  | case2 c rest hjoin term rest' hterm ih =>
    obtain ⟨more, hmore⟩ := ih
    obtain ⟨s, rfl⟩ := exists_symbol_of_isJoin hjoin
    obtain ⟨t, rfl⟩ := term?_eq_some hterm
    exact ⟨(s, t) :: more, by rw [hmore]; rfl⟩
  | case3 => exact ⟨[], rfl⟩
  | case4 => exact ⟨[], rfl⟩

theorem chain?_eq_some {cs chain rest : List Char} (h : chain? cs = some (chain, rest)) :
    ∃ (first : Term) (more : List (Sign × Term)), chain = first.chars ++ moreChars more := by
  unfold chain? at h
  split at h
  · next term mid hterm =>
    obtain ⟨t, rfl⟩ := term?_eq_some hterm
    obtain ⟨more, hmore⟩ := moreTerms_fst mid
    cases h
    exact ⟨t, more, congrArg (t.chars ++ ·) hmore⟩
  · cases h

/-! ### Amounts that are read -/

/-- The amount is a number of at most nine digits, or a chain of terms. -/
inductive Amount.IsWritten : Amount → Prop
  /-- A number. -/
  | literal {n : Int} (h : n.natAbs ≤ 999999999) : IsWritten (.literal n)
  /-- A chain of terms. -/
  | expression (first : Term) (more : List (Sign × Term)) :
    IsWritten (.expression (String.ofList (first.chars ++ moreChars more)))

theorem Numeral.length_le (n : Numeral) : n.digits.length ≤ maxDigits := by
  have h := n.isNumeral
  rw [Attribute.isNumeral, Bool.and_eq_true, decide_eq_true_eq, decide_eq_true_eq] at h
  exact h.2

theorem Numeral.value_le (n : Numeral) : numeralValue n.digits ≤ 999999999 := by
  have hpow : 10 ^ n.digits.length ≤ 10 ^ maxDigits :=
    Nat.pow_le_pow_right (by decide) n.length_le
  have hnine : 10 ^ maxDigits = 999999999 + 1 := by decide
  have hvalue := numeralValue_lt n.digits
  omega

theorem isWritten_amountOf (first : Term) (more : List (Sign × Term)) :
    (amountOf (first.chars ++ moreChars more)).IsWritten := by
  rw [amountOf]
  split
  · next hall =>
    -- With a sign or a dice letter in it, the chain would not be all digits.
    rw [List.all_append, Bool.and_eq_true, first.all_isDigit] at hall
    rcases more with _ | ⟨⟨s, t⟩, more⟩
    · cases first with
      | number n =>
        rw [moreChars, List.flatMap_nil, List.append_nil]
        exact .literal n.value_le
      | dice count letter faces => cases hall.1
    · have hsymbol : isDigit s.symbol = false := (classes_of_mem_marks (symbol_mem_marks s)).1
      rw [moreChars, List.flatMap_cons, List.cons_append, List.all_cons, hsymbol] at hall
      cases hall.2
  · exact .expression first more

theorem isWritten_of_amount? {cs rest : List Char} {kind : Kind} {amount : Amount}
    (h : amount? cs = some ((kind, amount), rest)) : amount.IsWritten := by
  cases cs with
  | nil => cases h
  | cons c cs =>
    simp only [amount?] at h
    split at h
    · obtain ⟨⟨chain, rest'⟩, hchain, heq⟩ := Option.map_eq_some_iff.1 h
      obtain ⟨first, more, rfl⟩ := chain?_eq_some hchain
      cases heq
      exact isWritten_amountOf first more
    · obtain ⟨⟨term, rest'⟩, hterm, heq⟩ := Option.map_eq_some_iff.1 h
      obtain ⟨t, rfl⟩ := term?_eq_some hterm
      cases heq
      have hsingle := isWritten_amountOf t []
      rwa [moreChars, List.flatMap_nil, List.append_nil] at hsingle

theorem isWritten_of_pairAfter {name cs rest : List Char} {p : Pair}
    (h : pairAfter name cs = some (p, rest)) : p.amount.IsWritten := by
  induction cs generalizing name with
  | nil =>
    unfold pairAfter at h
    split at h
    · next hamount =>
      split at hamount
      · cases hamount
      · cases hamount
    · cases h
  | cons c cs ih =>
    unfold pairAfter at h
    split at h
    · next hamount =>
      split at hamount
      · cases hamount
      · cases h
        exact isWritten_of_amount? hamount
    · simp only at h
      split at h
      · exact ih h
      · cases h

theorem isWritten_of_pairs? {cs : List Char} {ps : List Pair} (h : pairs? cs = some ps) :
    ∀ p ∈ ps, p.amount.IsWritten := by
  fun_induction pairs? cs generalizing ps with
  | case1 =>
    cases h
    exact List.forall_mem_nil _
  | case2 c cs p rest hpair ih =>
    obtain ⟨ps', hps, rfl⟩ := Option.map_eq_some_iff.1 h
    exact List.forall_mem_cons.2 ⟨isWritten_of_pairAfter hpair, ih hps⟩
  | case3 => cases h

theorem numeral_of_numeralAfterEquals? {cs digits : List Char}
    (h : numeralAfterEquals? cs = some digits) : ∃ n : Numeral, digits = n.digits := by
  induction cs with
  | nil => cases h
  | cons c cs ih =>
    rw [numeralAfterEquals?] at h
    split at h
    · next hc =>
      rw [Bool.and_eq_true] at hc
      cases h
      exact exists_numeral_of_takeWhile hc.2
    · exact ih h

theorem numeral_of_generated? {cs name digits : List Char}
    (h : generated? cs = some (name, digits)) : ∃ n : Numeral, digits = n.digits := by
  unfold generated? at h
  simp only at h
  split at h
  · cases h
  split at h
  · obtain ⟨digits', hdigits, heq⟩ := Option.map_eq_some_iff.1 h
    cases heq
    exact numeral_of_numeralAfterEquals? hdigits
  · cases h

theorem natAbs_integer?_le {w : List Char} {n : Int} (h : integer? w = some n) :
    n.natAbs ≤ 999999999 := by
  obtain ⟨m, ⟨-, rfl⟩ | ⟨s, -, rfl⟩⟩ := exists_numeral_of_integer? h
  · exact m.value_le
  · rw [natAbs_apply]
    exact m.value_le

/-- **An operation has an amount that can be written**, whatever the words are. -/
theorem isWritten_of_mem_readWords (aliases : AliasTable) (ws : List (List Char)) :
    ∀ op ∈ readWords aliases ws, op.amount.IsWritten := by
  fun_induction readWords aliases ws with
  | case1 => exact List.forall_mem_nil _
  | case2 word rest name digits hgenerated ih =>
    obtain ⟨n, rfl⟩ := numeral_of_generated? hgenerated
    exact List.forall_mem_cons.2 ⟨.literal n.value_le, ih⟩
  | case3 word rest hgenerated hcalculation ih => exact ih
  | case4 => exact List.forall_mem_nil _
  | case5 word hgenerated hcalculation hname next rest n hn ih =>
    exact List.forall_mem_cons.2 ⟨.literal (natAbs_integer?_le hn), ih⟩
  | case6 word hgenerated hcalculation hname next rest hn ih => exact ih
  | case7 word rest hgenerated hcalculation hname ih =>
    refine List.forall_mem_append.2 ⟨?_, ih⟩
    intro op hop
    obtain ⟨p, hp, rfl⟩ := List.mem_map.1 hop
    rcases hpairs : pairs? word with _ | ps
    · rw [hpairs] at hp
      cases hp
    · rw [hpairs] at hp
      exact isWritten_of_pairs? hpairs p hp

theorem isWritten_of_mem_readDirective {aliases : AliasTable} {text : String} {op : Operation}
    (h : op ∈ (readDirective aliases text).operations) : op.amount.IsWritten := by
  obtain ⟨segment, -, hop⟩ := List.mem_flatMap.1 h
  exact isWritten_of_mem_readWords aliases _ op hop

/-! ### Chains of terms as dice expressions -/

/-- The token of a term. -/
def Term.token : Term → Token
  | number n => .number n.digits
  | dice count letter faces => .dice ((count.map Numeral.digits).getD []) letter.1 faces.digits

/-- The tokens of a chain of terms. -/
def chainTokens (first : Term) (more : List (Sign × Term)) : List Token :=
  first.token :: more.flatMap fun p => [.sign p.1, p.2.token]

theorem Term.chars_token (t : Term) : t.token.chars = t.chars := by
  cases t with
  | number n => rfl
  | dice count letter faces => rfl

theorem flatMap_chars_chainTokens (first : Term) (more : List (Sign × Term)) :
    (chainTokens first more).flatMap Token.chars = first.chars ++ moreChars more := by
  have hmore : ∀ p : Sign × Term,
      [Token.sign p.1, p.2.token].flatMap Token.chars = p.1.symbol :: p.2.chars := by
    intro p
    rw [List.flatMap_cons, List.flatMap_singleton, p.2.chars_token]
    rfl
  rw [chainTokens, List.flatMap_cons, first.chars_token, List.flatMap_assoc]
  simp only [hmore]
  rfl

theorem Term.isLegible_token (t : Term) :
    t.token.isWritten = true ∧ t.token.fits = true := by
  have hall : ∀ n : Numeral, n.digits.all isDigit = true := fun n => List.all_eq_true.2 n.isDigit
  cases t with
  | number n =>
    rw [token, Token.isWritten, Token.fits, hall, n.isEmpty_eq_false,
      decide_eq_true n.length_le]
    exact ⟨rfl, rfl⟩
  | dice count letter faces =>
    cases count with
    | none =>
      rw [token, Token.isWritten, Token.fits, letter.2, hall,
        decide_eq_true faces.length_le]
      exact ⟨rfl, rfl⟩
    | some n =>
      rw [token, Token.isWritten, Token.fits, Option.map_some, Option.getD_some,
        letter.2, hall, hall, decide_eq_true n.length_le, decide_eq_true faces.length_le]
      exact ⟨rfl, rfl⟩

theorem areLegible_chainTokens (first : Term) (more : List (Sign × Term)) :
    AreLegible (chainTokens first more) := by
  refine List.forall_mem_cons.2 ⟨first.isLegible_token, ?_⟩
  intro token htoken
  obtain ⟨p, -, hp⟩ := List.mem_flatMap.1 htoken
  rcases List.mem_pair.1 hp with rfl | rfl
  · exact ⟨rfl, rfl⟩
  · exact p.2.isLegible_token

/-- A term is a factor. -/
theorem Term.derives (t : Term) :
    ∃ tree, Derives .factor [t.token] tree ∧ tree.isTerm = true := by
  cases t with
  | number n => exact ⟨_, .number n.digits, rfl⟩
  | dice count letter faces =>
    have hfaces : numeral? faces.digits = some (numeralValue faces.digits) := by
      rw [numeral?, faces.isEmpty_eq_false]
      rfl
    refine ⟨_, .dice _ letter.1 faces.digits, ?_⟩
    rw [hfaces]
    rfl

/-- A sum goes on with further terms. -/
theorem derives_moreTerms {ts : List Token} {tree : Tree}
    (h : Derives .sum ts tree) (hsum : tree.isSumOfTerms = true)
    (more : List (Sign × Term)) :
    ∃ tree', Derives .sum (ts ++ more.flatMap fun p => [.sign p.1, p.2.token]) tree' ∧
      tree'.isSumOfTerms = true := by
  induction more generalizing ts tree with
  | nil =>
    rw [List.flatMap_nil, List.append_nil]
    exact ⟨tree, h, hsum⟩
  | cons p more ih =>
    obtain ⟨r, hr, hterm⟩ := p.2.derives
    have hnext : (Tree.sum tree p.1 r).isSumOfTerms = true := by
      rw [Tree.isSumOfTerms, hsum, hterm]
      rfl
    rw [List.flatMap_cons, ← List.append_assoc]
    exact ih (.sum p.1 h (.factor hr)) hnext

/-- **A chain of terms is a dice expression**, and its tree is a sum of terms. -/
theorem parseText_chain (first : Term) (more : List (Sign × Term)) :
    ∃ tree, parseText (String.ofList (first.chars ++ moreChars more)) = .ok tree ∧
      tree.isComplete = true ∧ tree.isSumOfTerms = true := by
  obtain ⟨r, hr, hterm⟩ := first.derives
  obtain ⟨tree, htree, hsum⟩ :=
    derives_moreTerms (.term (.factor hr)) (Tree.isSumOfTerms_of_isTerm hterm) more
  have hnesting : tree.nesting ≤ maxDepth := by
    rw [Tree.nesting_of_isSumOfTerms hsum]
    exact Nat.zero_le _
  refine ⟨tree, ?_, htree.isComplete, hsum⟩
  rw [← flatMap_chars_chainTokens]
  exact parseText_of_derives htree (areLegible_chainTokens first more) hnesting

/-! ### Amounts of directives -/

/-- **The amounts of any text are numbers of at most nine digits, or dice expressions.**  Such an
expression is read to its end, as terms with signs between them.  It is rolled, unless the count
or the faces of a term of dice are out of bounds, or the sum of some first terms is too large. -/
theorem amounts_legible (aliases : AliasTable) (text : String) {op : Operation}
    (h : op ∈ (readDirective aliases text).operations) :
    (∀ n, op.amount = .literal n → n.natAbs ≤ 999999999) ∧
      ∀ e, op.amount = .expression e →
        ∃ tree, parseText e = .ok tree ∧ tree.isComplete = true ∧
          tree.isSumOfTerms = true ∧
          ∀ supply f supply', roll e amountFaces supply = (.error f, supply') →
            tree.Oversteps amountFaces supply.value supply.drawn f := by
  have hwritten := isWritten_of_mem_readDirective h
  refine ⟨?_, ?_⟩
  · intro n hn
    rw [hn] at hwritten
    cases hwritten with
    | literal hle => exact hle
  · intro e he
    rw [he] at hwritten
    cases hwritten with
    | expression first more =>
      obtain ⟨tree, hparse, hcomplete, hsum⟩ := parseText_chain first more
      exact ⟨tree, hparse, hcomplete, hsum,
        fun _ _ _ hroll => oversteps_of_roll hparse hsum hroll⟩

/-- Hit points are raised by two dice and lowered by one, and the amount can be rolled. -/
theorem amounts_legible_hit_points :
    let op : Operation := ⟨"hp", .add, .expression "2d6-1"⟩
    op ∈ (readDirective .asWritten "hp+2d6-1").operations ∧
      ∃ tree, parseText "2d6-1" = .ok tree ∧ tree.isComplete = true ∧
        tree.isSumOfTerms = true ∧
        ∀ supply f supply', roll "2d6-1" amountFaces supply = (.error f, supply') →
          tree.Oversteps amountFaces supply.value supply.drawn f := by
  have hop : (⟨"hp", .add, .expression "2d6-1"⟩ : Operation) ∈
      (readDirective .asWritten "hp+2d6-1").operations := by decide +kernel
  exact ⟨hop, (amounts_legible .asWritten "hp+2d6-1" hop).2 "2d6-1" rfl⟩

end Tabletop.Attribute
