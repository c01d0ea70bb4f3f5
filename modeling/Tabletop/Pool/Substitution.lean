import Tabletop.Attribute.Alias
import Tabletop.Text.Casefold
import Tabletop.Text.Digit

/-!
# Attributes in expressions

An expression may name attributes of a card instead of numbers.  Each attribute goes by its name on
the card and by all spellings of its canonical name; a name on the card comes before a spelling of
another attribute.  From left to right, the longest spelling that stands at a place is replaced by
the value, whatever the case of its letters.

## Main definitions

* `spellings` — the values of a card under the case folding of all their spellings.
* `longestFirst` — the spellings in the order in which they are tried.
* `substitute` — the expression with values in the place of spellings.
-/

namespace Tabletop.Pool

open Text

/-- The values of a card under the folded names and spellings of its attributes. -/
def spellings (aliases : AliasTable) (attributes : List (String × Int)) :
    InsertionMap String Int :=
  attributes.foldl
    (fun m a =>
      (aliases.spellingsFor (aliases.normalize a.1)).foldl
        (fun m spelling => m.putNew (casefold spelling) a.2) (m.put (casefold a.1) a.2))
    .empty

/-- The spellings, longer ones before shorter ones and otherwise in their order. -/
def longestFirst (names : List String) : List (List Char) :=
  (names.map String.toList).mergeSort fun a b => decide (b.length ≤ a.length)

/-- The start of a text that is a spelling up to case, and the rest. -/
def matchSpelling? : List Char → List Char → Option (List Char × List Char)
  | [], cs => some ([], cs)
  | _ :: _, [] => none
  | a :: name, c :: cs =>
    if matchesCaseless a c then
      (matchSpelling? name cs).map fun r => (c :: r.1, r.2)
    else none

/-- The first spelling in the list that stands at the start of a text, and the rest. -/
def firstMatch? (names : List (List Char)) (cs : List Char) : Option (List Char × List Char) :=
  names.findSome? fun name => matchSpelling? name cs

/-- What a spelling is replaced by: its value, or itself if its folding is no known one. -/
def replacement (values : InsertionMap String Int) (found : List Char) : List Char :=
  match values.get? (casefold (String.ofList found)) with
  | some v => (intText v).toList
  | none => found

/-- A spelling takes as many characters as it has. -/
theorem matchSpelling?_length {name cs found rest : List Char}
    (h : matchSpelling? name cs = some (found, rest)) :
    rest.length + name.length = cs.length := by
  induction name generalizing cs found with
  | nil =>
    simp only [matchSpelling?, Option.some.injEq, Prod.mk.injEq] at h
    simp [h.2]
  | cons a name ih =>
    cases cs with
    | nil => simp [matchSpelling?] at h
    | cons c cs =>
      simp only [matchSpelling?] at h
      split at h
      · obtain ⟨r, hr, he⟩ := Option.map_eq_some_iff.1 h
        simp only [Prod.mk.injEq] at he
        have hr' : matchSpelling? name cs = some (r.1, rest) := by rw [hr, ← he.2]
        have := ih hr'
        simp only [List.length_cons]
        omega
      · cases h

/-- The text with values in the place of spellings.  Where no spelling with characters stands, the
spelling without characters does, if there is one, before the next character is kept. -/
def substituteChars (values : InsertionMap String Int) (names : List (List Char))
    (cs : List Char) : List Char :=
  match _ : firstMatch? (names.filter fun name => !name.isEmpty) cs with
  | some (found, rest) => replacement values found ++ substituteChars values names rest
  | none =>
    -- The spelling without characters stands before every character and at the end.
    let gap := if names.any List.isEmpty then replacement values [] else []
    match cs with
    | [] => gap
    | c :: rest => gap ++ c :: substituteChars values names rest
termination_by cs.length
decreasing_by
  · next h =>
    obtain ⟨l, name, l', hl, hm, -⟩ := List.findSome?_eq_some_iff.1 h
    have hne : name.isEmpty = false := by
      have : name ∈ names.filter fun name => !name.isEmpty := by rw [hl]; simp
      simpa using (List.mem_filter.1 this).2
    have hpos : 0 < name.length := by
      cases name with
      | nil => simp at hne
      | cons => simp
    have := matchSpelling?_length hm
    omega
  · simp

/-- The text with the values of a card in the place of their spellings. -/
def substitute (aliases : AliasTable) (attributes : List (String × Int)) (text : String) :
    String :=
  let values := spellings aliases attributes
  String.ofList (substituteChars values (longestFirst values.keys) text.toList)

end Tabletop.Pool
