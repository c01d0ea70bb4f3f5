import Mathlib.Data.List.Nodup
import Tabletop.Pool.Substitution
import Tabletop.Proofs.Attribute.Caseless

/-!
# The spellings of a card

Each attribute of a card may be spelled by its name and by the aliases of its name, in letters of
either case.  If the names on the card are canonical and differ in more than case, no two attributes
share a spelling: an alias of one attribute is never the name of another one, because that name
would not be canonical.  So each spelling stands for the value of one attribute.

## Main definitions

* `Sheet` — attributes with canonical names and short values.
* `Spelling` — an attribute of a card, and how it is spelled.
* `spelled` — the foldings of all spellings of an attribute.
* `IsKey` — the texts that may be such foldings.

## Main results

* `eq_of_mem_spelled` — **no two attributes share a spelling.**
* `get?_spellings` — **a spelling stands for the value of its attribute.**
* `exists_of_mem_keys`, `isKey_of_mem_keys` — what has a value, and what it is made of.
-/

namespace Tabletop.Pool

open Text Attribute

/-- The attributes of a card that go by the usual aliases: their names are made of ASCII letters and
ideographs, are canonical, differ in more than case and are no dice letter; their values have at
most nine digits. -/
structure Sheet where
  /-- The attributes. -/
  attributes : List (String × Int)
  /-- No name is empty. -/
  named : ∀ a ∈ attributes, a.1 ≠ ""
  /-- The names are made of letters. -/
  letters : ∀ a ∈ attributes, ∀ c ∈ a.1.toList, isNameChar c = true
  /-- The names are canonical. -/
  canonical : ∀ a ∈ attributes, AliasTable.builtIn.normalize a.1 = a.1
  /-- The names differ in more than case. -/
  apart : (attributes.map fun a => casefold a.1).Nodup
  /-- No name is a dice letter. -/
  notDice : ∀ a ∈ attributes, a.1 ≠ "d" ∧ a.1 ≠ "D"
  /-- The values are short. -/
  short : ∀ a ∈ attributes, a.2.natAbs < 10 ^ Dice.maxDigits

/-- An attribute of a card, spelled by its name or by an alias of it in letters of either case. -/
structure Spelling (sheet : Sheet) where
  /-- The name on the card. -/
  name : String
  /-- The value on the card. -/
  value : Int
  /-- The attribute is on the card. -/
  mem : (name, value) ∈ sheet.attributes
  /-- How the attribute is spelled. -/
  chars : List Char
  /-- The spelling is the name or an alias of it, up to the case of ASCII letters. -/
  written : ∃ s, (s = name ∨ s ∈ AliasTable.builtIn.spellingsFor name) ∧
    chars.map Char.toLower = s.toList.map Char.toLower

/-! ### Foldings of spellings -/

/-- The folding of a spelling: letters in lower case, at least one, and more than a dice letter. -/
structure IsKey (k : List Char) : Prop where
  ne_nil : k ≠ []
  letters : ∀ c ∈ k, isNameChar c = true
  lower : k.map Char.toLower = k
  notDice : k ≠ ['d']

instance (k : List Char) : Decidable (IsKey k) :=
  decidable_of_iff
    (k ≠ [] ∧ k.all isNameChar = true ∧ k.map Char.toLower = k ∧ k ≠ ['d'])
    ⟨fun h => ⟨h.1, List.all_eq_true.1 h.2.1, h.2.2.1, h.2.2.2⟩,
      fun h => ⟨h.1, List.all_eq_true.2 h.2, h.3, h.4⟩⟩

theorem isKey_of_mem_builtInNames {e : String × List String} (he : e ∈ AliasTable.builtInNames)
    {s : String} (hs : s ∈ e.1 :: e.2) : IsKey s.toList := by
  have hall : ∀ e ∈ AliasTable.builtInNames, ∀ s ∈ e.1 :: e.2, IsKey s.toList := by
    decide +kernel
  exact hall e he s hs

theorem lower_eq_self {s : String} (h : IsKey s.toList) : lower s = s := by
  rw [← String.toList_inj, toList_lower h.letters, h.lower]

/-- The aliases of the usual table are foldings of spellings. -/
theorem isKey_of_mem_builtIn {p : String × String}
    (h : p ∈ AliasTable.builtIn.canonical.toList) : IsKey p.1.toList := by
  obtain ⟨e, he, s, hs, rfl⟩ := AliasTable.mem_build h
  have hkey := isKey_of_mem_builtInNames he hs
  rwa [lower_eq_self hkey]

/-- The usual aliases are in lower case to begin with. -/
theorem canonical_builtIn :
    AliasTable.builtIn.canonical =
      AliasTable.builtInNames.foldl
        (fun t e => (e.1 :: e.2).foldl (fun t s => t.put s e.1) t) .empty := by
  refine List.foldl_ext _ _ _ fun table e he => List.foldl_ext _ _ _ fun table' s hs => ?_
  rw [lower_eq_self (isKey_of_mem_builtInNames he hs)]

/-- The usual table, without the lower case that makes it slow to evaluate. -/
theorem builtIn_eq :
    AliasTable.builtIn =
      ⟨AliasTable.builtInNames.foldl
        (fun t e => (e.1 :: e.2).foldl (fun t s => t.put s e.1) t) .empty⟩ :=
  congrArg AliasTable.mk canonical_builtIn

/-- The foldings of all spellings of an attribute. -/
def spelled (a : String × Int) : List String :=
  casefold a.1 ::
    (AliasTable.builtIn.spellingsFor (AliasTable.builtIn.normalize a.1)).map casefold

theorem casefold_eq_self {s : String} (h : IsKey s.toList) : casefold s = s := by
  rw [← String.toList_inj, toList_casefold h.letters, h.lower]

namespace Sheet

variable {sheet : Sheet} {a b : String × Int} {k : String}

theorem isKey_casefold (ha : a ∈ sheet.attributes) : IsKey (casefold a.1).toList := by
  have hletters := sheet.letters a ha
  rw [toList_casefold hletters]
  refine ⟨?_, ?_, ?_, ?_⟩
  · intro hempty
    rw [List.map_eq_nil_iff, String.toList_eq_nil_iff] at hempty
    exact sheet.named a ha hempty
  · intro c hc
    obtain ⟨c', hc', rfl⟩ := List.mem_map.1 hc
    exact (isNameChar_toLower c').trans (hletters c' hc')
  · rw [List.map_map]
    exact List.map_congr_left fun c _ => toLower_toLower c
  · intro hd
    obtain ⟨c, hname, hc⟩ := List.map_eq_singleton_iff.1 hd
    rcases Dice.isDiceLetter_iff.1 (isDiceLetter_of_toLower hc) with rfl | rfl
    · exact (sheet.notDice a ha).1 (String.toList_inj.1 hname)
    · exact (sheet.notDice a ha).2 (String.toList_inj.1 hname)

/-- The spellings of an attribute of a card are its name and the aliases of its name. -/
theorem mem_spelled_iff (ha : a ∈ sheet.attributes) :
    k ∈ spelled a ↔
      k = casefold a.1 ∨ AliasTable.builtIn.canonical.get? k = some a.1 := by
  rw [spelled, sheet.canonical a ha, List.mem_cons, List.mem_map,
    InsertionMap.get?_eq_some_iff]
  refine or_congr_right ?_
  constructor
  · rintro ⟨s, hs, rfl⟩
    rw [AliasTable.mem_spellingsFor] at hs
    rwa [casefold_eq_self (isKey_of_mem_builtIn hs)]
  · intro hk
    exact ⟨k, AliasTable.mem_spellingsFor.2 hk, casefold_eq_self (isKey_of_mem_builtIn hk)⟩

theorem isKey_of_mem_spelled (ha : a ∈ sheet.attributes) (hk : k ∈ spelled a) :
    IsKey k.toList := by
  rcases (mem_spelled_iff ha).1 hk with rfl | halias
  · exact isKey_casefold ha
  · exact isKey_of_mem_builtIn ((InsertionMap.get?_eq_some_iff _).1 halias)

/-- An alias that folds like a name on the card is an alias of that very name. -/
theorem canonical_of_casefold (ha : a ∈ sheet.attributes) {name : String}
    (h : AliasTable.builtIn.canonical.get? (casefold a.1) = some name) : a.1 = name := by
  have hcanonical := sheet.canonical a ha
  rw [AliasTable.normalize, key_eq_casefold (sheet.letters a ha), h, Option.getD_some]
    at hcanonical
  exact hcanonical.symm

theorem eq_of_casefold_eq (ha : a ∈ sheet.attributes) (hb : b ∈ sheet.attributes)
    (h : casefold a.1 = casefold b.1) : a = b :=
  List.inj_on_of_nodup_map sheet.apart ha hb h

/-- **No two attributes of a card share a spelling.** -/
theorem eq_of_mem_spelled (ha : a ∈ sheet.attributes) (hb : b ∈ sheet.attributes)
    (hka : k ∈ spelled a) (hkb : k ∈ spelled b) : a = b := by
  rw [mem_spelled_iff ha] at hka
  rw [mem_spelled_iff hb] at hkb
  refine eq_of_casefold_eq ha hb ?_
  -- An alias of one name that is also the other name would lead from the one to the other, and a
  -- canonical name leads to itself.
  rcases hka with hka | hka
  · rcases hkb with hkb | hkb
    · rw [← hka, ← hkb]
    · rw [canonical_of_casefold ha (hka ▸ hkb)]
  · rcases hkb with hkb | hkb
    · rw [canonical_of_casefold hb (hkb ▸ hka)]
    · rw [Option.some.inj (hka.symm.trans hkb)]

end Sheet

/-! ### The values of spellings -/

/-- The values of spellings with those of one more attribute. -/
def addSpellings (m : InsertionMap String Int) (a : String × Int) : InsertionMap String Int :=
  (AliasTable.builtIn.spellingsFor (AliasTable.builtIn.normalize a.1)).foldl
    (fun m spelling => m.putNew (casefold spelling) a.2) (m.put (casefold a.1) a.2)

theorem spellings_eq_foldl (attributes : List (String × Int)) :
    spellings .builtIn attributes = attributes.foldl addSpellings .empty := rfl

theorem get?_foldl_putNew (ss : List String) (v : Int) (m : InsertionMap String Int) (k : String) :
    (ss.foldl (fun m s => m.putNew (casefold s) v) m).get? k =
      if k ∈ ss.map casefold then some ((m.get? k).getD v) else m.get? k := by
  induction ss generalizing m with
  | nil => simp
  | cons s ss ih =>
    rw [List.foldl_cons, ih, InsertionMap.get?_putNew, List.map_cons]
    by_cases hs : casefold s = k
    · simp [hs]
    · have hk : ¬k = casefold s := fun h => hs h.symm
      simp [hs, hk]

/-- The spellings of one more attribute do not touch a value that is there, if it is the same. -/
theorem get?_addSpellings {m : InsertionMap String Int} {a : String × Int} {k : String}
    (h : k ∈ spelled a → m.get? k = none ∨ m.get? k = some a.2) :
    (addSpellings m a).get? k = if k ∈ spelled a then some a.2 else m.get? k := by
  rw [addSpellings, get?_foldl_putNew, InsertionMap.get?_put]
  by_cases hk : k ∈ spelled a
  · have hvalue : (m.get? k).getD a.2 = a.2 := by
      rcases h hk with h | h
      · rw [h, Option.getD_none]
      · rw [h, Option.getD_some]
    rw [if_pos hk]
    by_cases hname : casefold a.1 = k
    · simp [hname]
    · rw [spelled, List.mem_cons] at hk
      rw [if_neg hname, hvalue, if_pos (hk.resolve_left fun h => hname h.symm)]
  · rw [if_neg hk]
    rw [spelled, List.mem_cons, not_or] at hk
    rw [if_neg hk.2, if_neg fun h => hk.1 h.symm]

/-- A text that only attributes of one value are spelled by stands for this value. -/
theorem get?_foldl_addSpellings {k : String} {v : Int} (attributes : List (String × Int))
    (howners : ∀ a ∈ attributes, k ∈ spelled a → a.2 = v) {m : InsertionMap String Int}
    (hm : m.get? k = none ∨ m.get? k = some v) :
    (attributes.foldl addSpellings m).get? k =
      if ∃ a ∈ attributes, k ∈ spelled a then some v else m.get? k := by
  induction attributes generalizing m with
  | nil => simp
  | cons a attributes ih =>
    rw [List.forall_mem_cons] at howners
    have hstep : (addSpellings m a).get? k = if k ∈ spelled a then some a.2 else m.get? k :=
      get?_addSpellings fun hk => by rwa [howners.1 hk]
    -- Every owner writes the same value, so it does not matter which one comes first.
    by_cases hk : k ∈ spelled a
    · rw [if_pos hk, howners.1 hk] at hstep
      rw [List.foldl_cons, ih howners.2 (Or.inr hstep), hstep, ite_self,
        if_pos ⟨a, List.mem_cons_self, hk⟩]
    · rw [if_neg hk] at hstep
      rw [← hstep] at hm
      rw [List.foldl_cons, ih howners.2 hm, hstep]
      have howner : (∃ b ∈ attributes, k ∈ spelled b) ↔ ∃ b ∈ a :: attributes, k ∈ spelled b := by
        rw [List.exists_mem_cons_iff, or_iff_right hk]
      exact if_congr howner rfl rfl

/-- Nothing but the spellings of its attributes stands for a value of a card. -/
theorem exists_of_mem_keys {attributes : List (String × Int)} {k : String}
    (hk : k ∈ (spellings .builtIn attributes).keys) : ∃ a ∈ attributes, k ∈ spelled a := by
  rw [← InsertionMap.contains_iff_mem_keys, InsertionMap.contains] at hk
  by_contra howner
  have howners : ∀ a ∈ attributes, k ∈ spelled a → a.2 = 0 :=
    fun a ha hka => absurd ⟨a, ha, hka⟩ howner
  rw [spellings_eq_foldl, get?_foldl_addSpellings attributes howners (Or.inl rfl),
    if_neg howner] at hk
  cases hk

namespace Sheet

variable {sheet : Sheet} {a : String × Int} {k : String}

/-- **A spelling stands for the value of its attribute.** -/
theorem get?_spellings (ha : a ∈ sheet.attributes) (hk : k ∈ spelled a) :
    (spellings .builtIn sheet.attributes).get? k = some a.2 := by
  have howners : ∀ b ∈ sheet.attributes, k ∈ spelled b → b.2 = a.2 := by
    intro b hb hkb
    rw [eq_of_mem_spelled hb ha hkb hk]
  rw [spellings_eq_foldl, get?_foldl_addSpellings sheet.attributes howners (Or.inl rfl),
    if_pos ⟨a, ha, hk⟩]

/-- What stands for the values of a card is the folding of a spelling. -/
theorem isKey_of_mem_keys (hk : k ∈ (spellings .builtIn sheet.attributes).keys) :
    IsKey k.toList := by
  obtain ⟨a, ha, hka⟩ := exists_of_mem_keys hk
  exact isKey_of_mem_spelled ha hka

end Sheet

namespace Spelling

variable {sheet : Sheet} (s : Spelling sheet)

/-- A spelling is a name or an alias up to case. -/
theorem exists_eq_map_toLower : ∃ t : String, (∀ c ∈ t.toList, isNameChar c = true) ∧
    casefold t ∈ spelled (s.name, s.value) ∧
      s.chars.map Char.toLower = t.toList.map Char.toLower := by
  obtain ⟨t, rfl | ht, hchars⟩ := s.written
  · exact ⟨s.name, sheet.letters _ s.mem, List.mem_cons_self, hchars⟩
  · refine ⟨t, (isKey_of_mem_builtIn (AliasTable.mem_spellingsFor.1 ht)).letters, ?_, hchars⟩
    rw [spelled, sheet.canonical _ s.mem]
    exact List.mem_cons_of_mem _ (List.mem_map_of_mem ht)

theorem isNameChar_of_mem {c : Char} (hc : c ∈ s.chars) : isNameChar c = true := by
  obtain ⟨t, hletters, -, hchars⟩ := s.exists_eq_map_toLower
  have hmem : c.toLower ∈ t.toList.map Char.toLower := hchars ▸ List.mem_map_of_mem hc
  obtain ⟨c', hc', heq⟩ := List.mem_map.1 hmem
  rw [← isNameChar_toLower, ← heq, isNameChar_toLower]
  exact hletters c' hc'

/-- The folding of a spelling. -/
theorem toList_casefold_chars :
    (casefold (String.ofList s.chars)).toList = s.chars.map Char.toLower := by
  have hletters : ∀ c ∈ (String.ofList s.chars).toList, isNameChar c = true := by
    rw [String.toList_ofList]
    exact fun _ => s.isNameChar_of_mem
  rw [toList_casefold hletters, String.toList_ofList]

theorem casefold_mem_spelled : casefold (String.ofList s.chars) ∈ spelled (s.name, s.value) := by
  obtain ⟨t, hletters, hmem, hchars⟩ := s.exists_eq_map_toLower
  have hfold : casefold (String.ofList s.chars) = casefold t := by
    rw [← String.toList_inj, s.toList_casefold_chars, hchars, toList_casefold hletters]
  rwa [hfold]

theorem isKey : IsKey (s.chars.map Char.toLower) :=
  s.toList_casefold_chars ▸ Sheet.isKey_of_mem_spelled s.mem s.casefold_mem_spelled

theorem chars_ne_nil : s.chars ≠ [] := fun h => s.isKey.ne_nil (List.map_eq_nil_iff.2 h)

/-- **A spelling is replaced by the value of its attribute.** -/
theorem replacement_chars :
    replacement (spellings .builtIn sheet.attributes) s.chars = (intText s.value).toList := by
  rw [replacement, Sheet.get?_spellings s.mem s.casefold_mem_spelled]

end Spelling

end Tabletop.Pool
