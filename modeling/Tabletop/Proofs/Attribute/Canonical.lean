import Tabletop.Proofs.Attribute.Caseless

/-!
# Canonical names

A table is built from canonical names with their spellings.  If in lower case no spelling belongs to
two names, it does not matter in which order they were put into the table: each spelling leads to
its name.  If moreover none of them has blanks around it, a name is found under itself, so that the
canonical form of a name is canonical already.

What is looked up is trimmed before it is put in lower case, while the table holds lower cases that
were not trimmed.  This makes no difference, since a blank is its own lower case and stays where it
is.

## Main definitions

* `AliasTable.Separate` — names with spellings that do not meet and have no blanks around them.
* `AliasTable.asWritten` — the table that leaves names as they are written.

## Main results

* `trim_of_trim_lower` — a text whose lower case has no blanks around it has none itself.
* `get?_build_iff` — **each spelling leads to its name, and nothing else leads anywhere.**
* `normalize_normalize` — **a canonical form is canonical.**
* `knows_iff_mem_spellingsFor` — a name is in a table if it is a spelling of its canonical form.
* `readDirective_eq_map` — **a directive is read as it is written**, and then names are put in
  canonical form.
-/

namespace Tabletop.Text

/-! ### Blanks and lower case -/

/-- A blank has no case. -/
theorem simpleLower_of_isBlank {c : Char} (h : isBlank c = true) : simpleLower c = c := by
  have hapart : ∀ b ∈ blankRanges, ∀ r ∈ lowerRuns, b.last < r.first ∨ r.last < b.first := by
    decide +kernel
  obtain ⟨b, hb, hfirst, hlast⟩ := inRanges_iff.1 h
  rw [simpleLower, shifted?_eq_none, Option.getD_none]
  intro r hr
  have houtside := hapart b hb r hr
  omega

theorem lowerBetween_of_isBlank {c : Char} (h : isBlank c = true) (before after : List Char) :
    lowerBetween before c after = [c] := by
  have hsigma : c ≠ 'Σ' := by
    rintro rfl
    exact absurd h (by decide)
  have hdotted : c ≠ 'İ' := by
    rintro rfl
    exact absurd h (by decide)
  rw [lowerBetween, if_neg hsigma, if_neg hdotted, simpleLower_of_isBlank h]

/-- A blank at the end of a text is at the end of its lower case. -/
theorem lowerAfter_append_blank {c : Char} (h : isBlank c = true) (cs before : List Char) :
    ∃ ds, lowerAfter before (cs ++ [c]) = ds ++ [c] := by
  induction cs generalizing before with
  | nil => exact ⟨[], by simp [lowerBetween_of_isBlank h]⟩
  | cons b cs ih =>
    obtain ⟨ds, hds⟩ := ih (b :: before)
    refine ⟨lowerBetween before b (cs ++ [c]) ++ ds, ?_⟩
    rw [List.cons_append, lowerAfter_cons, hds, List.append_assoc]

/-- A text that has nothing to trim starts and ends with no character of the class. -/
theorem ends_of_trimWhere {p : Char → Bool} {cs : List Char} (h : trimWhere p cs = cs) :
    (∀ c ∈ cs.head?, p c = false) ∧ ∀ c ∈ cs.getLast?, p c = false := by
  have hkept : ∀ {ds : List Char}, ds.dropWhile p = ds → ∀ c ∈ ds.head?, p c = false := by
    intro ds hds c hc
    have hhead := List.head?_dropWhile_not p ds
    rw [hds, Option.mem_def.1 hc] at hhead
    simpa using hhead
  -- What is left after trimming is part of what is left after trimming the start, so neither
  -- is shorter than the text.
  have hstart : cs.dropWhile p = cs := by
    have hprefix : trimWhere p cs <+: cs.dropWhile p := by
      rw [trimWhere, ← List.reverse_suffix, List.reverse_reverse]
      exact List.dropWhile_suffix p
    rw [h] at hprefix
    have hsuffix := List.dropWhile_suffix (l := cs) p
    exact hsuffix.eq_of_length (Nat.le_antisymm hsuffix.length_le hprefix.length_le)
  have hend : cs.reverse.dropWhile p = cs.reverse := by
    rw [trimWhere, hstart] at h
    rw [← List.reverse_inj, h, List.reverse_reverse]
  refine ⟨hkept hstart, ?_⟩
  rw [← List.head?_reverse]
  exact hkept hend

/-- **A text whose lower case has no blanks around it has none itself.** -/
theorem trim_of_trim_lower {s : String} (h : trim (lower s) = lower s) : trim s = s := by
  have hchars : trimWhere isBlank (lowerAfter [] s.toList) = lowerAfter [] s.toList := by
    have hlist := congrArg String.toList h
    rwa [toList_trim, lower, String.toList_ofList] at hlist
  obtain ⟨hfirst, hlast⟩ := ends_of_trimWhere hchars
  have htrim : trimChars s.toList = s.toList := by
    refine Attribute.trimChars_eq_self ?_ ?_
    · intro c hc
      obtain ⟨cs, hcs⟩ := List.head?_eq_some_iff.1 hc
      rw [Bool.eq_false_iff]
      intro hblank
      rw [hcs, lowerAfter_cons, lowerBetween_of_isBlank hblank] at hfirst
      rw [hfirst c rfl] at hblank
      cases hblank
    · -- What stands before a blank has no influence on it either.
      intro c hc
      obtain ⟨cs, hcs⟩ := List.getLast?_eq_some_iff.1 hc
      rw [Bool.eq_false_iff]
      intro hblank
      obtain ⟨ds, hds⟩ := lowerAfter_append_blank hblank cs []
      rw [hcs, hds] at hlast
      rw [hlast c List.getLast?_concat] at hblank
      cases hblank
  rw [trim, htrim, String.ofList_toList]

end Tabletop.Text

namespace Tabletop.AliasTable

open Text

/-! ### What leads where -/

theorem contains_addName {table : InsertionMap String String} {name k : String}
    {spellings : List String} :
    (addName table name spellings).contains k = true ↔
      (∃ s ∈ name :: spellings, lower s = k) ∨ table.contains k = true := by
  rw [addName]
  generalize name :: spellings = ss
  induction ss generalizing table with
  | nil => simp
  | cons s ss ih => simp [ih, or_assoc, or_left_comm]

/-- **A text leads somewhere** if it is the lower case of a spelling. -/
theorem contains_build {entries : List (String × List String)} {k : String} :
    (build entries).canonical.contains k = true ↔
      ∃ e ∈ entries, ∃ s ∈ e.1 :: e.2, lower s = k := by
  -- The induction is on the entries that are left, so it is about any table to begin with.
  have hfold : ∀ table : InsertionMap String String,
      (entries.foldl (fun t e => addName t e.1 e.2) table).contains k = true ↔
        (∃ e ∈ entries, ∃ s ∈ e.1 :: e.2, lower s = k) ∨ table.contains k = true := by
    induction entries with
    | nil => simp
    | cons e entries ih =>
      intro table
      rw [List.foldl_cons, ih, contains_addName, or_left_comm, ← or_assoc]
      have hcons := List.exists_mem_cons_iff (fun e => ∃ s ∈ e.1 :: e.2, lower s = k) e entries
      exact or_congr_left hcons.symm
  have hempty : ¬(InsertionMap.empty : InsertionMap String String).contains k = true :=
    Bool.false_ne_true
  exact (hfold .empty).trans (or_iff_left hempty)

/-- Canonical names with spellings that do not meet: in lower case no spelling belongs to two names,
and none has blanks around it.  A name is a spelling of itself. -/
structure Separate (entries : List (String × List String)) : Prop where
  /-- No spelling belongs to two names. -/
  apart : ∀ e ∈ entries, ∀ e' ∈ entries, e.1 ≠ e'.1 →
    ∀ s ∈ e.1 :: e.2, ∀ s' ∈ e'.1 :: e'.2, lower s ≠ lower s'
  /-- No spelling has blanks around it. -/
  trimmed : ∀ e ∈ entries, ∀ s ∈ e.1 :: e.2, trim (lower s) = lower s

namespace Separate

variable {entries : List (String × List String)} (h : Separate entries)
include h

/-- **Each spelling leads to its name, and nothing else leads anywhere.** -/
theorem get?_build_iff {k name : String} :
    (build entries).canonical.get? k = some name ↔
      ∃ e ∈ entries, ∃ s ∈ e.1 :: e.2, lower s = k ∧ e.1 = name := by
  have horigin : ∀ {name'}, (build entries).canonical.get? k = some name' →
      ∃ e ∈ entries, ∃ s ∈ e.1 :: e.2, lower s = k ∧ e.1 = name' := by
    intro name' hget
    obtain ⟨e, he, s, hs, hpair⟩ := mem_build ((InsertionMap.get?_eq_some_iff _).1 hget)
    obtain ⟨rfl, rfl⟩ := Prod.mk.inj hpair
    exact ⟨e, he, s, hs, rfl, rfl⟩
  refine ⟨horigin, ?_⟩
  rintro ⟨e, he, s, hs, rfl, rfl⟩
  have hthere := contains_build.2 ⟨e, he, s, hs, rfl⟩
  obtain ⟨name', hget⟩ := Option.isSome_iff_exists.1 hthere
  -- Whichever name was put there last, it has the same spelling and so it is the same.
  obtain ⟨e', he', s', hs', hlower, rfl⟩ := horigin hget
  by_cases hname : e.1 = e'.1
  · rw [hget, hname]
  · exact absurd hlower.symm (h.apart e he e' he' hname s hs s' hs')

/-- A canonical name is found under itself. -/
theorem normalize_name {e : String × List String} (he : e ∈ entries) :
    (build entries).normalize e.1 = e.1 := by
  have htrim := trim_of_trim_lower (h.trimmed e he e.1 List.mem_cons_self)
  have hget := h.get?_build_iff.2 ⟨e, he, e.1, List.mem_cons_self, rfl, rfl⟩
  rw [normalize, key, htrim, hget, Option.getD_some]

/-- **The canonical form of a name is canonical.** -/
theorem normalize_normalize (name : String) :
    (build entries).normalize ((build entries).normalize name) =
      (build entries).normalize name := by
  rcases hget : (build entries).canonical.get? (key name) with _ | canonical
  · -- An unknown name stays as it is, and so it stays unknown.
    have hsame : (build entries).normalize name = name := by rw [normalize, hget, Option.getD_none]
    rw [hsame, hsame]
  · have hname : (build entries).normalize name = canonical := by
      rw [normalize, hget, Option.getD_some]
    obtain ⟨e, he, -, -, -, rfl⟩ := h.get?_build_iff.1 hget
    rw [hname]
    exact h.normalize_name he

end Separate

/-- **A name is in a table** if what it is looked up under is a spelling of its canonical form. -/
theorem knows_iff_mem_spellingsFor (table : AliasTable) (name : String) :
    table.knows name = true ↔ key name ∈ table.spellingsFor (table.normalize name) := by
  rw [mem_spellingsFor, ← InsertionMap.get?_eq_some_iff, knows, InsertionMap.contains, normalize]
  rcases table.canonical.get? (key name) with _ | canonical
  · simp
  · simp

/-- The table without spellings, which leaves names as they are written. -/
def asWritten : AliasTable := ⟨.empty⟩

@[simp] theorem normalize_asWritten (name : String) : asWritten.normalize name = name := rfl

end Tabletop.AliasTable

namespace Tabletop.Attribute

/-! ### Names in directives -/

/-- The operation with the canonical name of the attribute that it names. -/
def Operation.canonical (table : AliasTable) (op : Operation) : Operation :=
  { op with name := table.normalize op.name }

theorem readWords_eq_map (table : AliasTable) (ws : List (List Char)) :
    readWords table ws = (readWords .asWritten ws).map (Operation.canonical table) := by
  fun_induction readWords AliasTable.asWritten ws with
  | case1 => rfl
  | case2 word rest name digits hgenerated ih =>
    rw [readWords.eq_def]
    simp only [hgenerated, ih, List.map_cons]
    rfl
  | case3 word rest hgenerated hcalculation ih =>
    rw [readWords.eq_def]
    simp only [hgenerated, hcalculation, ih, if_true]
  | case4 word hgenerated hcalculation hname =>
    rw [readWords.eq_def]
    simp [hgenerated, hcalculation, hname]
  | case5 word hgenerated hcalculation hname next rest n hn ih =>
    rw [readWords.eq_def]
    simp only [hgenerated, hcalculation, hname, hn, ih, List.map_cons, if_true]
    rfl
  | case6 word hgenerated hcalculation hname next rest hn ih =>
    rw [readWords.eq_def]
    simp [hgenerated, hcalculation, hname, hn, ih]
  | case7 word rest hgenerated hcalculation hname ih =>
    have hpairs : readPairs table word =
        (readPairs .asWritten word).map (Operation.canonical table) := by
      rw [readPairs, readPairs, List.map_map]
      rfl
    rw [readWords.eq_def]
    simp [hgenerated, hcalculation, hname, ih, hpairs]

/-- **A directive is read as it is written**, and then each name is put in canonical form. -/
theorem readDirective_eq_map (table : AliasTable) (text : String) :
    readDirective table text =
      ⟨(readDirective .asWritten text).card,
        (readDirective .asWritten text).operations.map (Operation.canonical table)⟩ := by
  simp only [readDirective, readSegments, List.map_flatMap, readWords_eq_map table]

end Tabletop.Attribute
