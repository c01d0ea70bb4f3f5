import Tabletop.Proofs.Dice.Numeral
import Tabletop.Proofs.Pool.Expression

/-!
# Pools given by expressions

The text of an expression is never of the short form, and once its attributes are replaced no letter
is left but the one that marks dice.  So the number of dice in the pool is the value of the
expression, unless that value is out of bounds or cannot be found.  There is one way in which
filling in the values may go wrong: the sign of a negative value may be one level of nesting too
many.

## Main definitions

* `Expression.roll` — rolling an expression, with the limit on the length of numerals.

## Main results

* `isLong_chars`, `hasForeignLetter_flatMap` — the text is an expression, before and after.
* `readSpec_of_long`, `readSpec_digits` — what is read stage by stage, and if only digits are left.
* `readSpec_expression` — **the pool is the one that the expression means.**
-/

namespace Tabletop.Pool

open Text Attribute Dice

/-! ### The text of an expression -/

/-- The digits at the start of a text are not followed by the letter of the short form. -/
def NoThreshold (cs : List Char) : Prop :=
  ∀ c ∈ (cs.dropWhile isDigit).head?, c ≠ 'a' ∧ c ≠ 'A'

theorem noThreshold_nil : NoThreshold [] := by
  intro c hc
  cases hc

theorem noThreshold_cons {c : Char} (hdigit : isDigit c = false) (hletter : c ≠ 'a' ∧ c ≠ 'A')
    (cs : List Char) : NoThreshold (c :: cs) := by
  intro c' hc'
  rw [List.dropWhile_cons_of_neg (ne_true_of_eq_false hdigit)] at hc'
  cases hc'
  exact hletter

theorem noThreshold_symbol {c : Char} (hc : c ∈ symbols) (cs : List Char) :
    NoThreshold (c :: cs) := by
  have hall : symbols.all (fun c => decide (isDigit c = false ∧ c ≠ 'a' ∧ c ≠ 'A')) = true := by
    decide
  obtain ⟨hdigit, hletter⟩ := of_decide_eq_true (List.all_eq_true.1 hall c hc)
  exact noThreshold_cons hdigit hletter cs

theorem noThreshold_append {ds cs : List Char} (hds : ∀ c ∈ ds, isDigit c = true)
    (h : NoThreshold cs) : NoThreshold (ds ++ cs) := by
  rw [NoThreshold, List.dropWhile_append_of_pos hds]
  exact h

/-- A text begins with something else than a digit, or its digits are not followed by the letter of
the short form. -/
def IsLong (cs : List Char) : Prop := (∀ c ∈ cs.head?, isDigit c = false) ∨ NoThreshold cs

theorem shortForm?_eq_none {cs : List Char} (h : IsLong cs) : shortForm? cs = none := by
  unfold shortForm?
  simp only
  split
  · next c threshold hdrop =>
    refine if_neg fun hshort => ?_
    simp only [Bool.and_eq_true, Bool.or_eq_true, beq_iff_eq, Bool.not_eq_true'] at hshort
    obtain ⟨⟨⟨hcount, hletter⟩, -⟩, -⟩ := hshort
    rcases h with hfirst | hthreshold
    · rcases cs with _ | ⟨c', cs⟩
      · cases hcount
      · rw [List.takeWhile_cons_of_neg (ne_true_of_eq_false (hfirst c' rfl))] at hcount
        cases hcount
    · obtain ⟨ha, hA⟩ := hthreshold c (by rw [hdrop]; rfl)
      exact hletter.elim ha hA
  · rfl

/-- **An expression is never of the short form.** -/
theorem isLong_chars {sheet : Sheet} {layer : Layer} (e : Expression sheet layer)
    {rest : List Char} (hrest : NoThreshold rest) : IsLong (e.chars ++ rest) := by
  -- Only the leftmost operand matters, and the induction goes down to it.
  induction e generalizing rest with
  | number ds h => exact Or.inr (noThreshold_append (isDigit_of_isWritten_number h) hrest)
  | dice count letter faces h =>
    obtain ⟨hcount, hdice, -⟩ := classes_of_isWritten_dice h
    have hletter : isDigit letter = false ∧ letter ≠ 'a' ∧ letter ≠ 'A' := by
      rcases isDiceLetter_iff.1 hdice with rfl | rfl
      · decide
      · decide
    rw [Expression.chars, List.append_assoc, List.cons_append]
    exact Or.inr (noThreshold_append hcount (noThreshold_cons hletter.1 hletter.2 _))
  | spelling s =>
    refine Or.inl fun c hc => ?_
    rw [Expression.chars, List.head?_append_of_ne_nil _ s.chars_ne_nil] at hc
    exact isDigit_eq_false_of_isNameChar (s.isNameChar_of_mem (List.mem_of_mem_head? hc))
  | signed s e ih => exact Or.inr (noThreshold_symbol (mem_symbols_sign s) _)
  | group e ih => exact Or.inr (noThreshold_symbol (by decide) _)
  | factor e ih | term e ih => exact ih hrest
  | product l s r ihl ihr =>
    rw [Expression.chars, List.append_assoc]
    exact ihl (noThreshold_symbol (mem_symbols_scale s) _)
  | sum l s r ihl ihr =>
    rw [Expression.chars, List.append_assoc]
    exact ihl (noThreshold_symbol (mem_symbols_sign s) _)

/-- No letter is left but the one that marks dice. -/
theorem hasForeignLetter_flatMap {ts : List Token} (h : ∀ t ∈ ts, t.isWritten = true) :
    hasForeignLetter (ts.flatMap Token.chars) = false := by
  have hsymbols : symbols.any isLetter = false := by decide +kernel
  rw [hasForeignLetter, List.any_eq_false]
  intro c hc hforeign
  rw [Bool.and_eq_true, Bool.not_eq_true'] at hforeign
  obtain ⟨t, ht, hct⟩ := List.mem_flatMap.1 hc
  rcases class_of_isWritten (h t ht) hct with hclass | hclass | hclass
  · rw [isLetter_eq_false_of_isDigit hclass] at hforeign
    exact Bool.false_ne_true hforeign.1
  · rw [hclass] at hforeign
    exact Bool.false_ne_true hforeign.2.symm
  · exact List.any_eq_false.1 hsymbols c hclass hforeign.1

/-! ### The pool -/

/-- What a text that is not of the short form is read as, stage by stage. -/
theorem readSpec_of_long {source : Source} {aliases : AliasTable}
    {attributes : List (String × Int)} {text residual : String} (hne : dropBlanks text.toList ≠ [])
    (hshort : shortForm? (dropBlanks text.toList) = none)
    (hresidual : substitute aliases attributes (String.ofList (dropBlanks text.toList)) = residual)
    (supply : Supply) :
    readSpec source aliases attributes text supply =
      if hasForeignLetter residual.toList then (.error (.unknownAttribute residual), supply)
      else
        match source.roll residual poolFaces supply with
        | (.ok r, supply') => (Spec.make r.total successFrom, supply')
        | (.error f, supply') => (.error (.format (.poolUnrollable text f)), supply') := by
  have hempty : (dropBlanks text.toList).isEmpty = false := List.isEmpty_eq_false_iff.2 hne
  simp only [readSpec, hempty, hshort, hresidual, Bool.false_eq_true, if_false]
  split
  · rfl
  simp only [Command.bind_apply, Command.ofRoll]
  rcases source.roll residual poolFaces supply with ⟨f | r, supply'⟩
  · rfl
  · rfl

/-- What a text that is not of the short form is rolled to, if no letter is left. -/
theorem readSpec_apply {source : Source} {aliases : AliasTable}
    {attributes : List (String × Int)} {text residual : String} (hne : dropBlanks text.toList ≠ [])
    (hshort : shortForm? (dropBlanks text.toList) = none)
    (hresidual : substitute aliases attributes (String.ofList (dropBlanks text.toList)) = residual)
    (hforeign : hasForeignLetter residual.toList = false) (supply : Supply) :
    readSpec source aliases attributes text supply =
      match source.roll residual poolFaces supply with
      | (.ok r, supply') => (Spec.make r.total successFrom, supply')
      | (.error f, supply') => (.error (.format (.poolUnrollable text f)), supply') := by
  have hread := @readSpec_of_long source _ _ _ _ hne hshort hresidual supply
  rwa [hforeign, if_neg Bool.false_ne_true] at hread

theorem hasForeignLetter_digits {ds : List Char} (hds : ∀ c ∈ ds, isDigit c = true) :
    hasForeignLetter ds = false := by
  rw [hasForeignLetter, List.any_eq_false]
  intro c hc
  rw [isLetter_eq_false_of_isDigit (hds c hc)]
  exact Bool.false_ne_true

/-- **A text of which only digits are left** gives the pool with the number that they write, unless
there are more than nine. -/
theorem readSpec_digits {aliases : AliasTable} {attributes : List (String × Int)} {text : String}
    {ds : List Char} (hne : dropBlanks text.toList ≠ [])
    (hshort : shortForm? (dropBlanks text.toList) = none)
    (hresidual : substitute aliases attributes (String.ofList (dropBlanks text.toList)) =
      String.ofList ds)
    (hds : ds ≠ []) (hdigits : ∀ c ∈ ds, isDigit c = true) (supply : Supply) :
    readSpec .evaluator aliases attributes text supply =
      (if ds.length ≤ maxDigits then Spec.make (numeralValue ds) successFrom
        else .error (.format (.poolUnrollable text .longNumeral)), supply) := by
  have hforeign : hasForeignLetter (String.ofList ds).toList = false := by
    rw [String.toList_ofList]
    exact hasForeignLetter_digits hdigits
  have hroll : ∀ supply, Source.evaluator.roll (String.ofList ds) poolFaces supply =
      Dice.roll (String.ofList ds) poolFaces supply := fun _ => rfl
  obtain ⟨hfits, hlong⟩ := roll_digits hds hdigits poolFaces supply
  rw [readSpec_apply hne hshort hresidual hforeign, hroll]
  by_cases hlength : ds.length ≤ maxDigits
  · obtain ⟨detail, hnumber⟩ := hfits hlength
    rw [if_pos hlength, hnumber]
  · rw [if_neg hlength, hlong (Nat.not_le.1 hlength)]

namespace Expression

variable {sheet : Sheet}

/-- Rolling an expression: numerals that are too long are refused before any die is thrown. -/
def roll (e : Expression sheet .sum) : Throwing Fault Int :=
  if e.fits then e.eval else throw .longNumeral

/-- The dice expression that is read once the values are filled in. -/
def residual (e : Expression sheet .sum) : String :=
  String.ofList (e.tokens.flatMap Token.chars)

theorem substitute_chars (e : Expression sheet .sum) :
    substitute .builtIn sheet.attributes (String.ofList e.chars) = e.residual := by
  have hfill := e.fill_chars ends_nil
  rw [List.append_nil, Sheet.fill_nil, List.append_nil] at hfill
  rw [Sheet.substitute_eq_fill, String.toList_ofList, hfill, residual]

theorem spells_residual (e : Expression sheet .sum) : Spells e.residual.toList e.tokens := by
  rw [residual, String.toList_ofList]
  exact spells_flatMap e.isWritten_of_mem_tokens

theorem tokens_residual (e : Expression sheet .sum) :
    Dice.tokens e.residual = if e.fits then .ok e.tokens else .error .longNumeral := by
  rw [tokens_of_spells e.spells_residual e.derives.apart e.derives.ne_nil, e.all_fits_tokens]

/-- A text that writes an expression is rolled with the values filled in. -/
theorem readSpec_text (e : Expression sheet .sum) {text : String}
    (htext : dropBlanks text.toList = e.chars) (supply : Supply) :
    readSpec .evaluator .builtIn sheet.attributes text supply =
      match Dice.roll e.residual poolFaces supply with
      | (.ok r, supply') => (Spec.make r.total successFrom, supply')
      | (.error f, supply') => (.error (.format (.poolUnrollable text f)), supply') := by
  have hshort : shortForm? e.chars = none := by
    have hlong := isLong_chars e noThreshold_nil
    rw [List.append_nil] at hlong
    exact shortForm?_eq_none hlong
  have hforeign : hasForeignLetter e.residual.toList = false := by
    rw [residual, String.toList_ofList]
    exact hasForeignLetter_flatMap e.isWritten_of_mem_tokens
  refine readSpec_apply ?_ ?_ ?_ hforeign supply
  · rw [htext]
    exact e.chars_ne_nil
  · rw [htext]
    exact hshort
  · rw [htext]
    exact e.substitute_chars

/-- The value of an expression is the total of its tree. -/
theorem eval_apply (e : Expression sheet .sum) (supply : Supply) :
    e.eval supply =
      match e.tree.eval rolled poolFaces .same supply with
      | (.ok r, supply') => (.ok r.total, supply')
      | (.error f, supply') => (.error f, supply') := by
  rw [← e.total_eval_tree .same, Throwing.map_apply]
  rcases e.tree.eval rolled poolFaces .same supply with ⟨f | r, supply'⟩
  · rfl
  · rfl

/-- **The dice expression is rolled to the value of the expression**, if it is not nested too
deeply. -/
theorem roll_residual (e : Expression sheet .sum)
    (hnesting : e.nesting Spelling.levels ≤ maxDepth) (supply : Supply) :
    match e.roll supply with
    | (.ok n, supply') =>
      ∃ detail, Dice.roll e.residual poolFaces supply = (.ok ⟨n, detail⟩, supply')
    | (.error f, supply') => Dice.roll e.residual poolFaces supply = (.error f, supply') := by
  have htokens := e.tokens_residual
  by_cases hfits : e.fits = true
  · rw [if_pos hfits] at htokens
    have hparse : parse e.tokens = e.tree :=
      parse_of_derives e.derives (e.nesting_tree ▸ hnesting)
    rw [roll, if_pos hfits, e.eval_apply, ← hparse]
    rcases heval : (parse e.tokens).eval rolled poolFaces .same supply with ⟨f | r, supply'⟩
    · exact roll_of_eval_error _ _ _ htokens heval
    · exact roll_of_eval_ok _ _ _ htokens heval
  · rw [if_neg hfits] at htokens
    rw [roll, if_neg hfits]
    exact roll_of_tokens_error _ _ _ htokens

/-- A dice expression that is nested too deeply is not rolled. -/
theorem roll_residual_of_deep (e : Expression sheet .sum)
    (hdeep : maxDepth < e.nesting Spelling.levels) (supply : Supply) :
    ∃ f supply', Dice.roll e.residual poolFaces supply = (.error f, supply') := by
  rcases hroll : Dice.roll e.residual poolFaces supply with ⟨f | r, supply'⟩
  · exact ⟨f, supply', rfl⟩
  · obtain ⟨ts, t, hevaluates, -⟩ := Evaluates.of_roll hroll
    obtain ⟨-, rfl⟩ := hevaluates.unique e.spells_residual e.derives
    have hnesting := hevaluates.nesting
    rw [e.nesting_tree] at hnesting
    omega

end Expression

theorem make_ne_unknownAttribute {count threshold : Int} {residual : String} :
    Spec.make count threshold ≠ .error (.unknownAttribute residual) := by
  intro h
  unfold Spec.make at h
  split at h
  · split at h
    · cases h
    · cases h
  · cases h

theorem Spelling.levels_le_one {sheet : Sheet} (s : Spelling sheet) : s.levels ≤ 1 := by
  unfold levels
  split
  · exact Nat.le_refl 1
  · exact Nat.zero_le 1

/-- **The pool is the one that the expression means.**  A text that writes an expression over a card
gives a pool of as many dice as the value of the expression, with the usual threshold, if that
number is within bounds; it takes the dice that the expression takes, and it is refused where the
expression cannot be evaluated.  Only an expression that is nested too deeply is refused in any
case; here a negative value counts as a level, so that the expression itself may be as deep as is
allowed. -/
theorem readSpec_expression {sheet : Sheet} (e : Expression sheet .sum) {text : String}
    (htext : dropBlanks text.toList = e.chars) (supply : Supply) :
    (e.nesting Spelling.levels ≤ maxDepth →
      readSpec .evaluator .builtIn sheet.attributes text supply =
        match e.roll supply with
        | (.ok n, supply') => (Spec.make n successFrom, supply')
        | (.error f, supply') => (.error (.format (.poolUnrollable text f)), supply')) ∧
      (maxDepth < e.nesting Spelling.levels → ∃ f supply',
        readSpec .evaluator .builtIn sheet.attributes text supply =
          (.error (.format (.poolUnrollable text f)), supply')) ∧
      (e.nesting Spelling.levels ≤ e.nesting (fun _ => 0) + 1 ∧
        ((∀ s ∈ e.spellings, 0 ≤ s.value) →
          e.nesting Spelling.levels = e.nesting fun _ => 0)) ∧
      ∀ residual supply', readSpec .evaluator .builtIn sheet.attributes text supply ≠
        (.error (.unknownAttribute residual), supply') := by
  have hread := e.readSpec_text htext supply
  refine ⟨?_, ?_, ⟨e.nesting_le_succ Spelling.levels_le_one, ?_⟩, ?_⟩
  · intro hnesting
    have hroll := e.roll_residual hnesting supply
    rcases hvalue : e.roll supply with ⟨f | n, supply'⟩
    · simp only [hvalue] at hroll
      rw [hread, hroll]
    · simp only [hvalue] at hroll
      obtain ⟨detail, hroll⟩ := hroll
      rw [hread, hroll]
  · intro hdeep
    obtain ⟨f, supply', hroll⟩ := e.roll_residual_of_deep hdeep supply
    exact ⟨f, supply', by rw [hread, hroll]⟩
  · intro hvalues
    refine e.nesting_congr fun s hs => ?_
    exact if_neg (Int.not_lt.2 (hvalues s hs))
  · intro residual supply' hunknown
    rw [hread] at hunknown
    rcases hroll : Dice.roll e.residual poolFaces supply with ⟨f | r, supply''⟩
    · rw [hroll] at hunknown
      cases hunknown
    · rw [hroll] at hunknown
      exact make_ne_unknownAttribute (Prod.mk.inj hunknown).1

/-- Two attributes, one of them negative. -/
def twoAttributes : List (String × Int) := [("敏捷", 3), ("剑", -1)]

theorem canonical_twoAttributes :
    ∀ a ∈ twoAttributes, AliasTable.builtIn.normalize a.1 = a.1 := by
  simp only [AliasTable.normalize, canonical_builtIn]
  decide +kernel

theorem apart_twoAttributes : (twoAttributes.map fun a => casefold a.1).Nodup := by
  decide +kernel

/-- A card with the two attributes. -/
def twoSheet : Sheet where
  attributes := twoAttributes
  named := by decide
  letters := by
    rw [twoAttributes, List.forall_mem_cons, List.forall_mem_singleton]
    exact ⟨List.all_eq_true.1 (by decide), List.all_eq_true.1 (by decide)⟩
  canonical := canonical_twoAttributes
  apart := apart_twoAttributes
  notDice := by decide
  short := by decide

/-- The dexterity of the card by one of its aliases. -/
def byAlias : Spelling twoSheet where
  name := "敏捷"
  value := 3
  mem := by decide
  chars := ['D', 'e', 'X']
  written := by
    refine ⟨"dex", Or.inr ?_, by decide⟩
    rw [AliasTable.mem_spellingsFor, canonical_builtIn]
    decide +kernel

/-- The other attribute by its name. -/
def byName : Spelling twoSheet where
  name := "剑"
  value := -1
  mem := by decide
  chars := ['剑']
  written := ⟨"剑", Or.inl rfl, rfl⟩

/-- A negative value is subtracted as a whole, and the letter of dice stays. -/
theorem readSpec_expression_subtracted :
    ∃ spec, readSpec .evaluator .builtIn twoSheet.attributes "DeX * 2 - 剑 + d"
        (Supply.ofList [4]) = (.ok spec, { Supply.ofList [4] with drawn := 1 }) ∧
      spec.count = 11 := by
  let e : Expression twoSheet .sum :=
    .sum
      (.sum (.term (.product (.factor (.spelling byAlias)) .times (.number ['2'] rfl))) .minus
        (.factor (.spelling byName)))
      .plus (.factor (.dice [] 'd' [] rfl))
  have htext : dropBlanks "DeX * 2 - 剑 + d".toList = e.chars := by decide
  have hnesting : e.nesting Spelling.levels ≤ maxDepth := by decide
  exact ⟨_, (readSpec_expression e htext (Supply.ofList [4])).1 hnesting, rfl⟩

end Tabletop.Pool
