import Tabletop.InsertionMap
import Tabletop.Text.Blank
import Tabletop.Text.Lowercase

/-!
# Alias tables

An attribute has one canonical name and several spellings that players use for it.  A table maps
the lower case of each spelling to the canonical name, so that looking up is caseless, and it
ignores blanks around a name.  An unknown name is canonical itself.

## Main definitions

* `AliasTable` — from spellings in lower case to canonical names.
* `AliasTable.build` — the table of a list of names with their spellings.
* `AliasTable.normalize` — the canonical name of a name.
* `AliasTable.spellingsFor` — the spellings of a canonical name.
* `AliasTable.builtIn` — the table of the usual attributes; `sanity` — one of them.

## Main results

* `AliasTable.mem_build` — what is in a table was put there.
* `AliasTable.mem_spellingsFor` — the spellings of a name are those that the table maps to it.
-/

namespace Tabletop

open Text

/-- A table of spellings. -/
structure AliasTable where
  /-- The canonical name of each spelling in lower case. -/
  canonical : InsertionMap String String

namespace AliasTable

/-- Adds a canonical name with its spellings; the name is a spelling of itself. -/
def addName (table : InsertionMap String String) (name : String) (spellings : List String) :
    InsertionMap String String :=
  (name :: spellings).foldl (fun t spelling => t.put (lower spelling) name) table

/-- The table of canonical names with their spellings; of two equal spellings the later counts. -/
def build (entries : List (String × List String)) : AliasTable :=
  ⟨entries.foldl (fun t e => addName t e.1 e.2) .empty⟩

/-- What adding a name puts into a table. -/
theorem mem_addName {table : InsertionMap String String} {name : String}
    {spellings : List String} {p : String × String}
    (h : p ∈ (addName table name spellings).toList) :
    (∃ s ∈ name :: spellings, p = (lower s, name)) ∨ p ∈ table.toList := by
  rw [addName] at h
  generalize name :: spellings = ss at h ⊢
  induction ss generalizing table with
  | nil => exact Or.inr h
  | cons s ss ih =>
    rcases ih h with ⟨s', hs', hp⟩ | hp
    · exact Or.inl ⟨s', List.mem_cons_of_mem _ hs', hp⟩
    · rcases InsertionMap.mem_write hp with hp | hp
      · exact Or.inl ⟨s, List.mem_cons_self, hp⟩
      · exact Or.inr hp

/-- What is in a table was put there in lower case. -/
theorem mem_build {entries : List (String × List String)} {p : String × String}
    (h : p ∈ (build entries).canonical.toList) :
    ∃ e ∈ entries, ∃ s ∈ e.1 :: e.2, p = (lower s, e.1) := by
  have hfold : ∀ table : InsertionMap String String,
      p ∈ (entries.foldl (fun t e => addName t e.1 e.2) table).toList →
        (∃ e ∈ entries, ∃ s ∈ e.1 :: e.2, p = (lower s, e.1)) ∨ p ∈ table.toList := by
    clear h
    induction entries with
    | nil => exact fun table h => Or.inr h
    | cons e entries ih =>
      intro table h
      rcases ih _ h with ⟨e', he', hp⟩ | hp
      · exact Or.inl ⟨e', List.mem_cons_of_mem _ he', hp⟩
      · rcases mem_addName hp with hp | hp
        · exact Or.inl ⟨e, List.mem_cons_self, hp⟩
        · exact Or.inr hp
  exact (hfold .empty h).resolve_right List.not_mem_nil

/-- The form of a name under which it is looked up. -/
def key (name : String) : String := lower (trim name)

/-- The canonical form of a name, or the name itself if it is unknown. -/
def normalize (table : AliasTable) (name : String) : String :=
  (table.canonical.get? (key name)).getD name

/-- Whether a name is in the table. -/
def knows (table : AliasTable) (name : String) : Bool := table.canonical.contains (key name)

/-- The spellings of a canonical name, in the order of the table. -/
def spellingsFor (table : AliasTable) (name : String) : List String :=
  (table.canonical.toList.filter fun e => e.2 == name).map Prod.fst

/-- The spellings of a name are those that the table maps to it. -/
theorem mem_spellingsFor {table : AliasTable} {s name : String} :
    s ∈ table.spellingsFor name ↔ (s, name) ∈ table.canonical.toList := by
  simp only [spellingsFor, List.mem_map, List.mem_filter, beq_iff_eq]
  constructor
  · rintro ⟨⟨s', name'⟩, ⟨hmem, rfl⟩, rfl⟩
    exact hmem
  · intro hmem
    exact ⟨(s, name), ⟨hmem, rfl⟩, rfl⟩

/-- The usual attributes with the spellings that players use for them. -/
def builtInNames : List (String × List String) :=
  [("力量", ["str", "strength"]),
   ("体质", ["con", "constitution"]),
   ("体型", ["siz", "size"]),
   ("敏捷", ["dex", "dexterity"]),
   ("外貌", ["app", "appearance"]),
   ("智力", ["int", "intelligence"]),
   ("意志", ["pow", "power"]),
   ("教育", ["edu", "education"]),
   ("幸运", ["luck", "luk"]),
   ("理智", ["san", "sanity"]),
   ("生命", ["hp", "生命值"]),
   ("魔法", ["mp", "魔法值"]),
   ("伤害加值", ["db", "伤害奖励"]),
   ("移动力", ["mov", "move"])]

/-- The table of the usual attributes. -/
def builtIn : AliasTable := build builtInNames

end AliasTable

/-- The attribute that sanity checks roll against. -/
def sanity : String := "理智"

end Tabletop
