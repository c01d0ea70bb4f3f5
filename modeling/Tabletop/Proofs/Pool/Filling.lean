import Tabletop.Proofs.Pool.Spellings

/-!
# Filling in the values of a card

A spelling is replaced by its value as a whole: behind it stands a character that no name can hold,
so no longer spelling reaches beyond it, and shorter ones are only tried later.  All other
characters stay.  This includes the letter of dice: a spelling that begins with it goes on with
a letter, and behind the letter of dice there is none.

## Main definitions

* `IsOuter` — a character that no letter of a name matches.
* `Ends` — the text goes on with such a character, or not at all.
* `Sheet.fill` — a text with the values of a card in the place of spellings.

## Main results

* `firstMatch?_spelling` — **the spelling that is found is the whole one.**
* `Sheet.fill_spelling`, `Sheet.fill_outer`, `Sheet.fill_diceLetter` — what becomes of the parts of
  a text.
-/

namespace Tabletop.Pool

open Text Attribute

/-! ### Where a name ends -/

/-- A character that no letter of a name matches. -/
structure IsOuter (c : Char) : Prop where
  caseless : IsCaseless c
  noLetter : isNameChar c = false

theorem isOuter_of_isDigit {c : Char} (h : isDigit c = true) : IsOuter c := by
  refine ⟨isCaseless_of_isDigit h, ?_⟩
  rw [Bool.eq_false_iff]
  intro hname
  rw [isDigit_eq_false_of_isNameChar hname] at h
  cases h

theorem isOuter_of_mem_symbols {c : Char} (h : c ∈ Dice.symbols) : IsOuter c := by
  have hnone : Dice.symbols.any isNameChar = false := by decide
  rw [List.any_eq_false] at hnone
  exact ⟨isCaseless_of_mem_symbols h, eq_false_of_ne_true (hnone c h)⟩

theorem IsOuter.not_matches {a c : Char} (h : IsOuter c) (ha : isNameChar a = true) :
    ¬matchesCaseless a c = true := by
  rw [matchesCaseless_eq_false ha h.caseless h.noLetter]
  exact Bool.false_ne_true

/-- A name cannot go on here: the text is over, or the next character is in no name. -/
def Ends (cs : List Char) : Prop := ∀ c ∈ cs.head?, IsOuter c

theorem ends_nil : Ends [] := by
  intro c hc
  cases hc

theorem ends_cons {c : Char} (h : IsOuter c) (cs : List Char) : Ends (c :: cs) := by
  intro c' hc'
  cases hc'
  exact h

theorem ends_append {ds cs : List Char} (hds : ∀ c ∈ ds, IsOuter c) (h : Ends cs) :
    Ends (ds ++ cs) := by
  cases ds with
  | nil => exact h
  | cons d ds => exact ends_cons (hds d List.mem_cons_self) (ds ++ cs)

/-! ### Matching one spelling -/

section Match

variable {name cs found rest : List Char} {c : Char}

theorem append_of_matchSpelling? (h : matchSpelling? name cs = some (found, rest)) :
    found ++ rest = cs := by
  induction name generalizing cs found with
  | nil =>
    cases h
    rfl
  | cons a name ih =>
    cases cs with
    | nil => cases h
    | cons c cs =>
      rw [matchSpelling?] at h
      split at h
      · obtain ⟨r, hr, he⟩ := Option.map_eq_some_iff.1 h
        cases he
        rw [List.cons_append, ih hr]
      · cases h

/-- A spelling is found wherever it stands, in letters of either case. -/
theorem matchSpelling?_of_toLower (hname : ∀ c ∈ name, isNameChar c = true)
    (hcs : ∀ c ∈ cs, isNameChar c = true) (h : name = cs.map Char.toLower) (rest : List Char) :
    matchSpelling? name (cs ++ rest) = some (cs, rest) := by
  induction cs generalizing name with
  | nil =>
    rw [h]
    rfl
  | cons c cs ih =>
    rw [List.map_cons] at h
    subst h
    rw [List.forall_mem_cons] at hname hcs
    have hmatch : matchesCaseless c.toLower c = true :=
      (matchesCaseless_iff hname.1 hcs.1).2 (toLower_toLower c)
    rw [List.cons_append, matchSpelling?, if_pos hmatch, ih hname.2 hcs.2 rfl]
    rfl

/-- What is found does not reach beyond the end of a name. -/
theorem length_le_of_matchSpelling? (hname : ∀ c ∈ name, isNameChar c = true) (hrest : Ends rest)
    {r : List Char × List Char} (h : matchSpelling? name (cs ++ rest) = some r) :
    name.length ≤ cs.length := by
  induction cs generalizing name r with
  | nil =>
    rcases name with _ | ⟨a, name⟩
    · exact Nat.le_refl 0
    · rcases rest with _ | ⟨c, rest⟩
      · cases h
      · have hmatch := (hrest c rfl).not_matches (hname a List.mem_cons_self)
        rw [List.nil_append, matchSpelling?, if_neg hmatch] at h
        cases h
  | cons c cs ih =>
    rcases name with _ | ⟨a, name⟩
    · exact Nat.zero_le _
    · rw [List.cons_append, matchSpelling?] at h
      split at h
      · obtain ⟨r', hr', -⟩ := Option.map_eq_some_iff.1 h
        have hle := ih (fun c hc => hname c (List.mem_cons_of_mem _ hc)) hr'
        rw [List.length_cons, List.length_cons]
        omega
      · cases h

theorem matchSpelling?_outer (hname : IsKey name) (hc : IsOuter c) (cs : List Char) :
    matchSpelling? name (c :: cs) = none := by
  rcases name with _ | ⟨a, name⟩
  · exact absurd rfl hname.ne_nil
  · rw [matchSpelling?, if_neg (hc.not_matches (hname.letters a List.mem_cons_self))]

/-- The letter of dice is never taken for a spelling. -/
theorem matchSpelling?_diceLetter (hname : IsKey name) (hc : Dice.isDiceLetter c = true)
    (hrest : Ends rest) : matchSpelling? name (c :: rest) = none := by
  have hletter : isNameChar c = true ∧ c.toLower = 'd' := by
    rcases Dice.isDiceLetter_iff.1 hc with rfl | rfl
    · decide
    · decide
  rcases hmatch : matchSpelling? name (c :: rest) with _ | r
  · rfl
  · have hlength : name.length ≤ [c].length :=
      length_le_of_matchSpelling? hname.letters hrest hmatch
    rcases name with _ | ⟨a, _ | ⟨b, name⟩⟩
    · exact absurd rfl hname.ne_nil
    · -- A spelling of one letter would be the letter of dice.
      by_cases hac : matchesCaseless a c = true
      · have ha := hname.letters a List.mem_cons_self
        rw [matchesCaseless_iff ha hletter.1, hletter.2] at hac
        have hlower := hname.lower
        rw [List.map_singleton, hac] at hlower
        exact absurd hlower.symm hname.notDice
      · rw [matchSpelling?, if_neg hac] at hmatch
        cases hmatch
    · simp only [List.length_cons, List.length_nil] at hlength
      omega

end Match

/-! ### The longest spelling -/

section First

variable {names : List (List Char)} {cs rest : List Char}

theorem firstMatch?_eq_none (h : ∀ name ∈ names, matchSpelling? name cs = none) :
    firstMatch? names cs = none :=
  List.findSome?_eq_none_iff.2 h

/-- **The spelling that is found is the whole one.**  Longer ones do not match, and those of the
same length match the same characters. -/
theorem firstMatch?_spelling (hsorted : names.Pairwise fun a b => b.length ≤ a.length)
    (hletters : ∀ name ∈ names, ∀ c ∈ name, isNameChar c = true)
    (hcs : ∀ c ∈ cs, isNameChar c = true) (hmem : cs.map Char.toLower ∈ names)
    (hrest : Ends rest) :
    firstMatch? names (cs ++ rest) = some (cs, rest) := by
  induction names with
  | nil => cases hmem
  | cons name names ih =>
    rw [List.pairwise_cons] at hsorted
    rw [List.forall_mem_cons] at hletters
    have hwhole : cs.length ≤ name.length := by
      rcases List.mem_cons.1 hmem with heq | htail
      · rw [← heq, List.length_map]
      · have hle := hsorted.1 _ htail
        rwa [List.length_map] at hle
    rw [firstMatch?, List.findSome?_cons]
    rcases hmatch : matchSpelling? name (cs ++ rest) with _ | ⟨found, rest'⟩
    · rcases List.mem_cons.1 hmem with heq | htail
      · have hfound := matchSpelling?_of_toLower hletters.1 hcs heq.symm rest
        rw [hmatch] at hfound
        cases hfound
      · exact ih hsorted.2 hletters.2 htail
    · -- This spelling is neither shorter than the whole one nor does it reach beyond it.
      have hname := length_le_of_matchSpelling? hletters.1 hrest hmatch
      have htaken := matchSpelling?_length hmatch
      have hsplit := append_of_matchSpelling? hmatch
      have htotal := congrArg List.length hsplit
      have hlength : found.length = cs.length := by
        rw [List.length_append] at htotal
        omega
      obtain ⟨rfl, rfl⟩ := List.append_inj hsplit hlength
      rfl

theorem pairwise_longestFirst (names : List String) :
    (longestFirst names).Pairwise fun a b => b.length ≤ a.length := by
  have hsorted := @List.pairwise_mergeSort (List Char) (fun a b => decide (b.length ≤ a.length))
    (fun a b c hab hbc => by simp only [decide_eq_true_eq] at *; omega)
    (fun a b => by simp only [Bool.or_eq_true, decide_eq_true_eq]; omega)
    (names.map String.toList)
  exact hsorted.imp fun h => of_decide_eq_true h

theorem mem_longestFirst {names : List String} {name : List Char} :
    name ∈ longestFirst names ↔ ∃ k ∈ names, k.toList = name := by
  rw [longestFirst, List.mem_mergeSort, List.mem_map]

end First

/-! ### Texts -/

section Texts

variable {values : InsertionMap String Int} {names : List (List Char)} {cs rest : List Char}

theorem filter_of_ne_nil (hne : ∀ name ∈ names, name ≠ []) :
    (names.filter fun name => !name.isEmpty) = names := by
  refine List.filter_eq_self.2 fun name hname => ?_
  rw [Bool.not_eq_true', List.isEmpty_eq_false_iff]
  exact hne name hname

theorem any_isEmpty_of_ne_nil (hne : ∀ name ∈ names, name ≠ []) :
    names.any List.isEmpty = false := by
  rw [List.any_eq_false]
  intro name hname hempty
  exact hne name hname (List.isEmpty_iff.1 hempty)

/-- Where there is no spelling without characters, none stands between others. -/
theorem substituteChars_eq (hne : ∀ name ∈ names, name ≠ []) (cs : List Char) :
    substituteChars values names cs =
      match firstMatch? names cs with
      | some (found, rest) => replacement values found ++ substituteChars values names rest
      | none =>
        match cs with
        | [] => []
        | c :: rest => c :: substituteChars values names rest := by
  rw [substituteChars.eq_def]
  split
  · next found rest h =>
    rw [filter_of_ne_nil hne] at h
    simp only [h]
  · next h =>
    rw [filter_of_ne_nil hne] at h
    simp only [h, any_isEmpty_of_ne_nil hne, Bool.false_eq_true, if_false, List.nil_append]
    cases cs with
    | nil => rfl
    | cons c rest => rfl

theorem substituteChars_cons_of_none (hne : ∀ name ∈ names, name ≠ []) {c : Char}
    (h : ∀ name ∈ names, matchSpelling? name (c :: rest) = none) :
    substituteChars values names (c :: rest) = c :: substituteChars values names rest := by
  rw [substituteChars_eq hne, firstMatch?_eq_none h]

theorem substituteChars_nil (hne : ∀ name ∈ names, name ≠ []) :
    substituteChars values names [] = [] := by
  rw [substituteChars_eq hne, firstMatch?_eq_none]
  intro name hname
  rcases name with _ | ⟨a, name⟩
  · exact absurd rfl (hne _ hname)
  · rfl

end Texts

namespace Sheet

variable {sheet : Sheet}

/-- A text with the values of a card in the place of spellings. -/
def fill (sheet : Sheet) (cs : List Char) : List Char :=
  substituteChars (spellings .builtIn sheet.attributes)
    (longestFirst (spellings .builtIn sheet.attributes).keys) cs

theorem substitute_eq_fill (sheet : Sheet) (text : String) :
    substitute .builtIn sheet.attributes text = String.ofList (sheet.fill text.toList) := rfl

theorem isKey_of_mem_longestFirst {name : List Char}
    (h : name ∈ longestFirst (spellings .builtIn sheet.attributes).keys) : IsKey name := by
  obtain ⟨k, hk, rfl⟩ := mem_longestFirst.1 h
  exact isKey_of_mem_keys hk

theorem ne_nil_of_mem_longestFirst {name : List Char}
    (h : name ∈ longestFirst (spellings .builtIn sheet.attributes).keys) : name ≠ [] :=
  (isKey_of_mem_longestFirst h).ne_nil

@[simp] theorem fill_nil (sheet : Sheet) : sheet.fill [] = [] :=
  substituteChars_nil fun _ => ne_nil_of_mem_longestFirst

/-- **A spelling is filled in with its value.** -/
theorem fill_spelling (s : Spelling sheet) {rest : List Char} (hrest : Ends rest) :
    sheet.fill (s.chars ++ rest) = (intText s.value).toList ++ sheet.fill rest := by
  have hkey : casefold (String.ofList s.chars) ∈ (spellings .builtIn sheet.attributes).keys := by
    rw [← InsertionMap.contains_iff_mem_keys, InsertionMap.contains,
      get?_spellings s.mem s.casefold_mem_spelled]
    rfl
  have hmem := mem_longestFirst.2 ⟨_, hkey, s.toList_casefold_chars⟩
  have hmatch := firstMatch?_spelling (pairwise_longestFirst _)
    (fun _ h => (isKey_of_mem_longestFirst h).letters) (fun _ => s.isNameChar_of_mem) hmem hrest
  rw [fill, substituteChars_eq fun _ => ne_nil_of_mem_longestFirst, hmatch]
  simp only [s.replacement_chars]
  rfl

/-- A character that no name holds stays. -/
theorem fill_outer {c : Char} (hc : IsOuter c) (rest : List Char) :
    sheet.fill (c :: rest) = c :: sheet.fill rest :=
  substituteChars_cons_of_none (fun _ => ne_nil_of_mem_longestFirst)
    fun _ h => matchSpelling?_outer (isKey_of_mem_longestFirst h) hc rest

theorem fill_outers {cs : List Char} (hcs : ∀ c ∈ cs, IsOuter c) (rest : List Char) :
    sheet.fill (cs ++ rest) = cs ++ sheet.fill rest := by
  induction cs with
  | nil => rfl
  | cons c cs ih =>
    rw [List.forall_mem_cons] at hcs
    rw [List.cons_append, fill_outer hcs.1, ih hcs.2, List.cons_append]

/-- The letter of dice stays. -/
theorem fill_diceLetter {c : Char} (hc : Dice.isDiceLetter c = true) {rest : List Char}
    (hrest : Ends rest) : sheet.fill (c :: rest) = c :: sheet.fill rest :=
  substituteChars_cons_of_none (fun _ => ne_nil_of_mem_longestFirst)
    fun _ h => matchSpelling?_diceLetter (isKey_of_mem_longestFirst h) hc hrest

end Sheet

end Tabletop.Pool
