import Mathlib.Data.List.Basic
import Tabletop.Attribute.Alias
import Tabletop.Proofs.Attribute.Directive
import Tabletop.Text.Casefold
import Tabletop.Text.Letter

/-!
# The case of names

The letters of names are the ASCII letters and the ideographs of the basic block.  Among them the
three ways of ignoring case agree: lower case, case folding and caseless matching all go by the
lower case of the ASCII letters.  Digits and the signs of expressions have no case at all, so none
of them is ever taken for a letter of a name.

## Main definitions

* `IsCaseless` — a character that matches itself only.

## Main results

* `simpleLower_of_isNameChar`, `foldChar_of_isNameChar` — lower case and folding of a letter.
* `matchesCaseless_iff` — when letters of names match.
* `matchesCaseless_eq_false` — no letter of a name matches a caseless character of another class.
* `toList_casefold`, `key_eq_casefold` — a name is looked up under its folding.
-/

namespace Tabletop.Text

/-- The lower case of a character moves the capitals of the ASCII letters only. -/
theorem toNat_toLower (c : Char) :
    c.toLower.toNat = if 0x41 ≤ c.toNat ∧ c.toNat ≤ 0x5A then c.toNat + 32 else c.toNat := by
  have hcapital : (c.val ≥ 'A'.val ∧ c.val ≤ 'Z'.val) ↔ 0x41 ≤ c.toNat ∧ c.toNat ≤ 0x5A := by
    rw [ge_iff_le, UInt32.le_iff_toNat_le, UInt32.le_iff_toNat_le]
    exact Iff.rfl
  unfold Char.toLower
  by_cases h : 0x41 ≤ c.toNat ∧ c.toNat ≤ 0x5A
  · rw [dif_pos (hcapital.2 h), if_pos h]
    have hlast : c.val.toNat ≤ 0x5A := h.2
    show (c.val + 32).toNat = c.val.toNat + 32
    rw [UInt32.toNat_add]
    exact Nat.mod_eq_of_lt (Nat.lt_of_le_of_lt (Nat.add_le_add_right hlast 32) (by decide))
  · rw [dif_neg fun h' => h (hcapital.1 h'), if_neg h]

theorem toLower_toLower (c : Char) : c.toLower.toLower = c.toLower := by
  rw [← Char.toNat_inj, toNat_toLower c.toLower, toNat_toLower]
  split
  · split
    · omega
    · rfl
  · rfl

/-- The letters whose lower case is a `d` are the dice letters. -/
theorem isDiceLetter_of_toLower {c : Char} (h : c.toLower = 'd') :
    Dice.isDiceLetter c = true := by
  have hcode : c.toLower.toNat = 0x64 := congrArg Char.toNat h
  rw [toNat_toLower] at hcode
  rw [Dice.isDiceLetter_iff, ← Char.toNat_inj, ← Char.toNat_inj]
  show c.toNat = 0x64 ∨ c.toNat = 0x44
  split at hcode
  · omega
  · omega

/-- A character that no run covers is not shifted. -/
theorem shifted?_eq_none {runs : List CaseRun} {c : Char}
    (h : ∀ r ∈ runs, c.toNat < r.first ∨ r.last < c.toNat) : shifted? runs c = none := by
  rw [shifted?, Option.map_eq_none_iff, List.find?_eq_none]
  intro r hr hcovers
  simp only [CaseRun.covers, Bool.and_eq_true, decide_eq_true_eq] at hcovers
  have := h r hr
  omega

/-- A character that is its own lower case and shares its case with no other one. -/
def IsCaseless (c : Char) : Prop :=
  simpleLower c = c ∧ ∀ letters ∈ caseClasses, c.toNat ∉ letters

instance (c : Char) : Decidable (IsCaseless c) := inferInstanceAs (Decidable (_ ∧ _))

theorem matchesCaseless_of_isCaseless {a c : Char} (h : IsCaseless c) :
    matchesCaseless a c = (simpleLower a == c) := by
  obtain ⟨hlower, hclasses⟩ := h
  have hclass : (caseClasses.any fun letters =>
      letters.contains (simpleLower a).toNat && letters.contains (simpleLower c).toNat) =
        false := by
    rw [List.any_eq_false, hlower]
    intro letters hletters hboth
    rw [Bool.and_eq_true, List.contains_iff_mem, List.contains_iff_mem] at hboth
    exact hclasses letters hletters hboth.2
  rw [matchesCaseless, hclass, hlower, Bool.or_false]

/-- No digit lies within bounds that no run of digits meets.  The test is Boolean, as it goes
through the product of two tables. -/
theorem outside_of_isDigit {α : Type} (rows : List α) (first last : α → Nat)
    (h : (digitZeros.all fun z => rows.all fun r =>
      Nat.ble (z + 10) (first r) || Nat.ble (last r + 1) z) = true)
    {c : Char} (hc : isDigit c = true) {r : α} (hr : r ∈ rows) :
    c.toNat < first r ∨ last r < c.toNat := by
  obtain ⟨z, hz, hzero, hnine⟩ := isDigit_iff.1 hc
  have happart := List.all_eq_true.1 (List.all_eq_true.1 h z hz) r hr
  rw [Bool.or_eq_true, Nat.ble_eq, Nat.ble_eq] at happart
  omega

/-- Digits have no case. -/
theorem isCaseless_of_isDigit {c : Char} (h : isDigit c = true) : IsCaseless c := by
  refine ⟨?_, ?_⟩
  · rw [simpleLower, shifted?_eq_none, Option.getD_none]
    intro r hr
    exact outside_of_isDigit lowerRuns CaseRun.first CaseRun.last (by decide +kernel) h hr
  · intro letters hletters hmem
    have houtside := outside_of_isDigit caseClasses.flatten id id (by decide +kernel) h
      (List.mem_flatten_of_mem hletters hmem)
    exact houtside.elim (Nat.lt_irrefl _) (Nat.lt_irrefl _)

theorem isCaseless_of_mem_symbols {c : Char} (h : c ∈ Dice.symbols) : IsCaseless c := by
  have hall : Dice.symbols.all (fun c => decide (IsCaseless c)) = true := by decide
  exact of_decide_eq_true (List.all_eq_true.1 hall c h)

/-- No digit is a letter. -/
theorem isLetter_eq_false_of_isDigit {c : Char} (h : isDigit c = true) : isLetter c = false := by
  rw [Bool.eq_false_iff]
  intro hletter
  obtain ⟨r, hr, hfirst, hlast⟩ := inRanges_iff.1 hletter
  have houtside := outside_of_isDigit letterRanges CharRange.first CharRange.last
    (by decide +kernel) h hr
  omega

end Tabletop.Text

namespace Tabletop.Attribute

open Text

/-! ### The letters of names -/

section Letter

variable {a c : Char}

theorem isNameChar_toLower (c : Char) : isNameChar c.toLower = isNameChar c := by
  rw [Bool.eq_iff_iff, isNameChar_iff, isNameChar_iff, toNat_toLower]
  split
  · omega
  · exact Iff.rfl

/-- The lower case of a letter of a name. -/
theorem simpleLower_of_isNameChar (h : isNameChar c = true) : simpleLower c = c.toLower := by
  have hcapitals : ∀ n < 0x5B, 0x41 ≤ n →
      simpleLower (Char.ofNat n) = (Char.ofNat n).toLower := by decide +kernel
  have hruns : ∀ r ∈ lowerRuns, (r.first = 0x41 ∧ r.last = 0x5A) ∨
      0x7A < r.first ∧ (r.last < 0x4E00 ∨ 0x9FFF < r.first) := by decide +kernel
  by_cases hcapital : 0x41 ≤ c.toNat ∧ c.toNat ≤ 0x5A
  · have hlower := hcapitals c.toNat (Nat.lt_succ_of_le hcapital.2) hcapital.1
    rwa [Char.ofNat_toNat] at hlower
  · have hname := isNameChar_iff.1 h
    have hself : c.toLower = c := by rw [← Char.toNat_inj, toNat_toLower, if_neg hcapital]
    rw [simpleLower, shifted?_eq_none, Option.getD_none, hself]
    intro r hr
    have := hruns r hr
    omega

/-- **A letter of a name folds to its lower case.** -/
theorem foldChar_of_isNameChar (h : isNameChar c = true) : foldChar c = [c.toLower] := by
  have hexpansions : ∀ e ∈ foldExpansions, 0x7A < e.1 ∧ (e.1 < 0x4E00 ∨ 0x9FFF < e.1) := by
    decide +kernel
  have hruns : ∀ r ∈ foldRuns, 0x7A < r.first ∧ (r.last < 0x4E00 ∨ 0x9FFF < r.first) := by
    decide +kernel
  have hname := isNameChar_iff.1 h
  have hnone : foldExpansions.find? (·.1 == c.toNat) = none := by
    rw [List.find?_eq_none]
    intro e he heq
    have := hexpansions e he
    rw [beq_iff_eq] at heq
    omega
  have hshift : shifted? foldRuns c = none := by
    refine shifted?_eq_none fun r hr => ?_
    have := hruns r hr
    omega
  rw [foldChar, hnone, hshift, Option.getD_none, simpleLower_of_isNameChar h]

/-- **Letters of names match if their lower cases are equal.** -/
theorem matchesCaseless_iff (ha : isNameChar a = true) (hc : isNameChar c = true) :
    matchesCaseless a c = true ↔ a.toLower = c.toLower := by
  -- A class of letters that count as one has at most one letter that names may hold.
  have hclasses : ∀ letters ∈ caseClasses, ∀ m ∈ letters, ∀ n ∈ letters,
      (m ≤ 0x7A ∨ 0x4E00 ≤ m ∧ m ≤ 0x9FFF) → (n ≤ 0x7A ∨ 0x4E00 ≤ n ∧ n ≤ 0x9FFF) → m = n := by
    decide +kernel
  have hlowera := isNameChar_iff.1 ((isNameChar_toLower a).trans ha)
  have hlowerc := isNameChar_iff.1 ((isNameChar_toLower c).trans hc)
  rw [matchesCaseless, simpleLower_of_isNameChar ha, simpleLower_of_isNameChar hc,
    Bool.or_eq_true, beq_iff_eq, List.any_eq_true]
  refine ⟨?_, Or.inl⟩
  rintro (heq | ⟨letters, hletters, hboth⟩)
  · exact heq
  · rw [Bool.and_eq_true, List.contains_iff_mem, List.contains_iff_mem] at hboth
    rw [← Char.toNat_inj]
    exact hclasses letters hletters _ hboth.1 _ hboth.2 (by omega) (by omega)

/-- **No letter of a name matches a caseless character that is none.** -/
theorem matchesCaseless_eq_false (ha : isNameChar a = true) (hcase : IsCaseless c)
    (hc : isNameChar c = false) : matchesCaseless a c = false := by
  rw [matchesCaseless_of_isCaseless hcase, simpleLower_of_isNameChar ha, beq_eq_false_iff_ne]
  intro heq
  rw [← heq, isNameChar_toLower, ha] at hc
  cases hc

end Letter

/-! ### Names -/

section Name

variable {name : String}

/-- **The folding of a name is its lower case.** -/
theorem toList_casefold (h : ∀ c ∈ name.toList, isNameChar c = true) :
    (casefold name).toList = name.toList.map Char.toLower := by
  rw [casefold, String.toList_ofList, foldChars, List.map_eq_flatMap]
  exact List.flatMap_congr fun c hc => foldChar_of_isNameChar (h c hc)

theorem lowerAfter_of_isNameChar {cs : List Char} (h : ∀ c ∈ cs, isNameChar c = true)
    (before : List Char) : lowerAfter before cs = cs.map Char.toLower := by
  induction cs generalizing before with
  | nil => rfl
  | cons c cs ih =>
    rw [List.forall_mem_cons] at h
    have hsigma : c ≠ 'Σ' := by
      rintro rfl
      exact absurd h.1 (by decide)
    have hdotted : c ≠ 'İ' := by
      rintro rfl
      exact absurd h.1 (by decide)
    rw [lowerAfter_cons, lowerBetween, if_neg hsigma, if_neg hdotted,
      simpleLower_of_isNameChar h.1, ih h.2]
    rfl

/-- The lower case of a name. -/
theorem toList_lower (h : ∀ c ∈ name.toList, isNameChar c = true) :
    (lower name).toList = name.toList.map Char.toLower := by
  rw [lower, String.toList_ofList, lowerAfter_of_isNameChar h]

/-- **A name is looked up under its folding.** -/
theorem key_eq_casefold (h : ∀ c ∈ name.toList, isNameChar c = true) :
    AliasTable.key name = casefold name := by
  have htrim : trimChars name.toList = name.toList :=
    trimChars_eq_self
      (fun c hc => isBlank_eq_false_of_isNameChar (h c (List.mem_of_mem_head? hc)))
      fun c hc => isBlank_eq_false_of_isNameChar (h c (List.mem_of_getLast? hc))
  have hkey : AliasTable.key name = lower name := by
    rw [AliasTable.key, trim, htrim, String.ofList_toList]
  rw [← String.toList_inj, hkey, toList_casefold h, toList_lower h]

end Name

end Tabletop.Attribute
