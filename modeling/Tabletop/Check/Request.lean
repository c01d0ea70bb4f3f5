import Tabletop.Attribute.Alias
import Tabletop.Attribute.Pair
import Tabletop.Check.Cost

/-!
# Requests for checks

What is asked of a check: the card, the attribute to roll against, a value to be taken instead of
the one on the card, and what the check is about.  A sanity check also has a cost, and a growth
check may have a formula.

## Main definitions

* `Purpose` — what a check is about.
* `Request` — a request for a check.
* `sanityRequest`, `growthRequest` — the requests that the words of a command give.

## Main results

* `sanityRequest_eq_ok`, `growthRequest_eq_ok` — what these requests are about.
-/

namespace Tabletop.Check

open Text Attribute

/-- What a check is about. -/
inductive Purpose where
  /-- Sanity, with its cost. -/
  | sanity (cost : Option Cost)
  /-- The growth of a skill, with a formula. -/
  | growth (formula : Option Formula)
  /-- Nothing in particular. -/
  | plain
  deriving DecidableEq, Repr

/-- A request for a check. -/
structure Request where
  /-- The card. -/
  card : String
  /-- The attribute, in any spelling. -/
  name : String
  /-- The value to roll against instead of the one on the card. -/
  explicit : Option Int
  /-- The words that give a reason. -/
  reason : String
  /-- What the check is about. -/
  purpose : Purpose
  deriving DecidableEq, Repr

/-- The value of an integer of one to nine digits with an optional sign, as a whole text; the text
may end in one line feed. -/
def integerLine? (cs : List Char) : Option Int :=
  if cs.getLast? = some '\n' then signedNumeral? cs.dropLast else signedNumeral? cs
where
  /-- The value of a numeral with an optional sign. -/
  signedNumeral? : List Char → Option Int
    | '-' :: digits => (numeral? digits).map fun n => -(n : Int)
    | '+' :: digits => (numeral? digits).map fun n => (n : Int)
    | digits => (numeral? digits).map fun n => (n : Int)
  /-- The value of a numeral. -/
  numeral? (digits : List Char) : Option Nat :=
    if isNumeral digits && digits.all isDigit then some (numeralValue digits) else none

/-- An explicit value among the words after the first, and the words that are left. -/
def takeExplicit (words : List String) : Option Int × List String :=
  match words with
  | [] => (none, [])
  | word :: rest =>
    match integerLine? word.toList with
    | some n => (some n, rest)
    | none => (none, words)

/-- The request of a sanity command: a cost, an optional value and a reason. -/
def sanityRequest (card : String) : List String → Except Error Request
  | [] => .error (.format .missingCost)
  | cost :: words => do
      let cost ← Cost.parse (some cost)
      let (explicit, reason) := takeExplicit words
      .ok ⟨card, Tabletop.sanity, explicit, " ".intercalate reason, .sanity (some cost)⟩

/-- The request of a growth command: a skill, an optional value or formula, and a reason. -/
def growthRequest (card : String) : List String → Except Error Request
  | [] => .error (.format .missingSkill)
  | skill :: words =>
    match words with
    | word :: rest =>
      match Formula.ofChars? (trimChars word.toList) with
      | some formula =>
        .ok ⟨card, skill, none, " ".intercalate rest, .growth (some formula)⟩
      | none =>
        let (explicit, reason) := takeExplicit words
        .ok ⟨card, skill, explicit, " ".intercalate reason, .growth none⟩
    | [] => .ok ⟨card, skill, none, "", .growth none⟩

/-- A request for a sanity check is about sanity and has a cost. -/
theorem sanityRequest_eq_ok {card : String} {words : List String} {request : Request}
    (h : sanityRequest card words = .ok request) :
    request.card = card ∧ request.name = Tabletop.sanity ∧
      ∃ cost, request.purpose = .sanity (some cost) := by
  cases words with
  | nil => cases h
  | cons cost words =>
    rcases hcost : Cost.parse (some cost) with e | c
    · simp only [sanityRequest, hcost] at h
      cases h
    · simp only [sanityRequest, hcost] at h
      cases h
      exact ⟨rfl, rfl, c, rfl⟩

/-- A request for a growth check is about the first word; a formula in it was read from a word. -/
theorem growthRequest_eq_ok {card : String} {words : List String} {request : Request}
    (h : growthRequest card words = .ok request) :
    request.card = card ∧ words.head? = some request.name ∧
      ∃ formula, request.purpose = .growth formula ∧
        ∀ f ∈ formula, ∃ cs, Formula.ofChars? cs = some f := by
  cases words with
  | nil => cases h
  | cons skill words =>
    cases words with
    | nil =>
      cases h
      refine ⟨rfl, rfl, none, rfl, ?_⟩
      intro f hf
      cases hf
    | cons word rest =>
      simp only [growthRequest] at h
      split at h
      · next formula hformula =>
        cases h
        refine ⟨rfl, rfl, some formula, rfl, ?_⟩
        intro f hf
        rw [← Option.some.inj hf]
        exact ⟨_, hformula⟩
      · cases h
        refine ⟨rfl, rfl, none, rfl, ?_⟩
        intro f hf
        cases hf

end Tabletop.Check
