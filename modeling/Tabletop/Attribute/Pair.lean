import Tabletop.Attribute.Directive
import Tabletop.Dice.Token

/-!
# Names with amounts

The unit of a directive is a name directly followed by what happens to it: an operator with a chain
of terms, as in `hp+1d6-2`, or a single term that is set, as in `力量60`.  The name is the shortest
one after which such an amount can be read.

A term is a number or a term of dice with a number of faces.  A numeral has one to nine digits, of
any script; a longer run of digits is no numeral and not part of one.

## Main definitions

* `isNameChar` — the characters of names.
* `term?`, `chain` — a term and the longest chain of terms at the start of a text.
* `Pair`, `pair?` — a name with its amount at the start of a text.
* `pairs?` — a whole text read as names with amounts.
-/

namespace Tabletop.Attribute

open Text

/-- Whether the character is an ideograph of the basic block. -/
def isIdeograph (c : Char) : Bool := decide (0x4E00 ≤ c.toNat) && decide (c.toNat ≤ 0x9FFF)

/-- Whether the character is a capital letter from `A` to `Z`. -/
def isCapital (c : Char) : Bool := decide (0x41 ≤ c.toNat) && decide (c.toNat ≤ 0x5A)

/-- Whether the character is a small letter from `a` to `z`. -/
def isSmall (c : Char) : Bool := decide (0x61 ≤ c.toNat) && decide (c.toNat ≤ 0x7A)

/-- Whether a name may hold the character. -/
def isNameChar (c : Char) : Bool := isSmall c || isCapital c || isIdeograph c

/-- Whether a run of digits is a numeral: it has one to nine of them. -/
def isNumeral (digits : List Char) : Bool :=
  decide (1 ≤ digits.length) && decide (digits.length ≤ Dice.maxDigits)

/-- A dice letter with its face count at the start of a text, and the rest. -/
def faces? : List Char → Option (List Char × List Char)
  | [] => none
  | c :: rest =>
    let digits := rest.takeWhile isDigit
    if Dice.isDiceLetter c && isNumeral digits then
      some (c :: digits, rest.dropWhile isDigit)
    else none

/-- The term at the start of a text, and the rest. -/
def term? (cs : List Char) : Option (List Char × List Char) :=
  let digits := cs.takeWhile isDigit
  let rest := cs.dropWhile isDigit
  if digits.isEmpty then faces? cs
  else if isNumeral digits then
    -- A dice letter without a numeral behind it does not belong to the term.
    match faces? rest with
    | some (faces, rest') => some (digits ++ faces, rest')
    | none => some (digits, rest)
  else none

/-- Whether the character joins two terms of a chain. -/
def isJoin (c : Char) : Bool := c == '+' || c == '-'

/-- Dropping characters does not make a text longer. -/
theorem length_dropWhile_le (p : Char → Bool) (cs : List Char) :
    (cs.dropWhile p).length ≤ cs.length :=
  (List.dropWhile_suffix p).length_le

/-- A face count takes at least the dice letter. -/
theorem faces?_length {cs faces rest : List Char} (h : faces? cs = some (faces, rest)) :
    rest.length < cs.length := by
  cases cs with
  | nil => simp [faces?] at h
  | cons c cs =>
    simp only [faces?] at h
    split at h
    · simp only [Option.some.injEq, Prod.mk.injEq] at h
      rw [← h.2, List.length_cons]
      exact Nat.lt_succ_of_le (length_dropWhile_le _ _)
    · cases h

/-- A term takes at least one character. -/
theorem term?_length {cs term rest : List Char} (h : term? cs = some (term, rest)) :
    rest.length < cs.length := by
  unfold term? at h
  simp only at h
  split at h
  · exact faces?_length h
  · next hne =>
    have hlt : (cs.dropWhile isDigit).length < cs.length := by
      have hsum := congrArg List.length (List.takeWhile_append_dropWhile (p := isDigit) (l := cs))
      rw [List.length_append] at hsum
      have hpos : 0 < (cs.takeWhile isDigit).length := by
        rw [List.length_pos_iff]
        exact fun e => hne (by rw [e]; rfl)
      omega
    split at h
    · split at h
      · next hf =>
        simp only [Option.some.injEq, Prod.mk.injEq] at h
        rw [← h.2]
        exact Nat.lt_trans (faces?_length hf) hlt
      · simp only [Option.some.injEq, Prod.mk.injEq] at h
        rw [← h.2]
        exact hlt
    · cases h

/-- The longest list of joined terms at the start of a text, and the rest. -/
def moreTerms (cs : List Char) : List Char × List Char :=
  match cs with
  | [] => ([], [])
  | c :: rest =>
    if isJoin c then
      match _ : term? rest with
      | some (term, rest') => (c :: term ++ (moreTerms rest').1, (moreTerms rest').2)
      | none => ([], cs)
    else ([], cs)
termination_by cs.length
decreasing_by all_goals exact Nat.lt_succ_of_lt (term?_length (by assumption))

/-- The longest chain of terms at the start of a text, and the rest. -/
def chain? (cs : List Char) : Option (List Char × List Char) :=
  match term? cs with
  | some (term, rest) =>
    some (term ++ (moreTerms rest).1, (moreTerms rest).2)
  | none => none

/-- The amount that a text stands for: a number if it has digits only. -/
def amountOf (cs : List Char) : Amount :=
  if cs.all isDigit then .literal (numeralValue cs) else .expression (String.ofList cs)

/-- What an operator does. -/
def kindOf? (c : Char) : Option Kind :=
  if c = '+' then some .add
  else if c = '-' then some .subtract
  else if c = ':' || c = '：' then some .set
  else none

/-- A name with what happens to it. -/
structure Pair where
  /-- The name as it was written. -/
  name : List Char
  /-- What happens to the attribute. -/
  kind : Kind
  /-- The amount. -/
  amount : Amount
  deriving DecidableEq, Repr

/-- The amount at the start of a text, with the kind of its operator, and the rest. -/
def amount? (cs : List Char) : Option ((Kind × Amount) × List Char) :=
  match cs with
  | [] => none
  | c :: rest =>
    match kindOf? c with
    | some kind => (chain? rest).map fun r => ((kind, amountOf r.1), r.2)
    | none => (term? cs).map fun r => ((.set, amountOf r.1), r.2)

/-- The pair at the start of a text, given the characters of the name before it. -/
def pairAfter (name : List Char) (cs : List Char) : Option (Pair × List Char) :=
  match (if name.isEmpty then none else amount? cs) with
  | some ((kind, amount), rest) => some (⟨name, kind, amount⟩, rest)
  | none =>
    -- No amount can be read here, so the name goes on by one character.
    match cs with
    | [] => none
    | c :: rest => if isNameChar c then pairAfter (name ++ [c]) rest else none

/-- The pair at the start of a text, and the rest. -/
def pair? (cs : List Char) : Option (Pair × List Char) := pairAfter [] cs

/-- Further terms may take nothing. -/
theorem moreTerms_length (cs : List Char) : (moreTerms cs).2.length ≤ cs.length := by
  fun_induction moreTerms cs with
  | case1 => exact Nat.le_refl _
  | case2 c rest hc term rest' h ih =>
    exact Nat.le_trans ih (Nat.le_of_lt (Nat.lt_succ_of_lt (term?_length h)))
  | case3 => exact Nat.le_refl _
  | case4 => exact Nat.le_refl _

/-- An amount takes at least one character. -/
theorem amount?_length {cs rest : List Char} {r : Kind × Amount}
    (h : amount? cs = some (r, rest)) : rest.length < cs.length := by
  cases cs with
  | nil => simp [amount?] at h
  | cons c cs =>
    simp only [amount?] at h
    split at h
    · obtain ⟨⟨chain, rest'⟩, hc, he⟩ := Option.map_eq_some_iff.1 h
      simp only [Prod.mk.injEq] at he
      rw [← he.2]
      unfold chain? at hc
      split at hc
      · next term mid ht =>
        simp only [Option.some.injEq, Prod.mk.injEq] at hc
        rw [← hc.2]
        have h1 := term?_length ht
        have h2 := moreTerms_length mid
        simp only [List.length_cons]
        omega
      · cases hc
    · obtain ⟨⟨term, rest'⟩, ht, he⟩ := Option.map_eq_some_iff.1 h
      simp only [Prod.mk.injEq] at he
      rw [← he.2]
      exact term?_length ht

/-- A pair takes at least one character. -/
theorem pairAfter_length {name cs rest : List Char} {p : Pair}
    (h : pairAfter name cs = some (p, rest)) : rest.length < cs.length := by
  induction cs generalizing name with
  | nil =>
    unfold pairAfter at h
    split at h
    · next hs =>
      split at hs
      · cases hs
      · simp [amount?] at hs
    · cases h
  | cons c cs ih =>
    unfold pairAfter at h
    split at h
    · next hs =>
      simp only [Option.some.injEq, Prod.mk.injEq] at h
      rw [← h.2]
      split at hs
      · cases hs
      · exact amount?_length hs
    · simp only at h
      split at h
      · exact Nat.lt_succ_of_lt (ih h)
      · cases h

/-- The whole text as pairs, one after another; none if something else is in it. -/
def pairs? (cs : List Char) : Option (List Pair) :=
  match cs with
  | [] => some []
  | c :: rest =>
    match _ : pair? (c :: rest) with
    | some (p, rest') => (pairs? rest').map (p :: ·)
    | none => none
termination_by cs.length
decreasing_by exact pairAfter_length (by assumption)

end Tabletop.Attribute
