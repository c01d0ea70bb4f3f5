import Tabletop.InsertionMap

/-!
# Card stores

A store keeps the attributes of each character card.  A card takes a new attribute only while it
has fewer than a given number; an attribute that is there can always be overwritten.  A store may
also be read-only and then refuses every write.

## Main definitions

* `CardStore` — the cards.
* `CardStore.attributes`, `CardStore.get?` — what is on a card.
* `CardStore.set` — a write, and whether it was accepted.

## Main results

* `get?_write` — a write changes one attribute of one card and nothing else.
* `mem_keys_iff` — the attributes that have values are those that are listed.
* `ext_attributes` — a store is known by its cards in order and their attributes.
* `set_of_get?` — an attribute that is there can be overwritten.
* `accepts_eq_false_iff` — when a card refuses an attribute.
* `accepts_write` — a card that refuses an attribute still does after another one was written.
-/

namespace Tabletop

/-- The attributes on a card, in the order in which they came. -/
abbrev Attributes := InsertionMap String Int

/-- Character cards with their attributes. -/
structure CardStore where
  /-- The cards. -/
  cards : InsertionMap String Attributes
  /-- Whether every write is refused. -/
  readOnly : Bool

namespace CardStore

/-- The store without cards. -/
def empty : CardStore := ⟨.empty, false⟩

/-- The attributes on a card; a card that is not there has none. -/
def attributes (s : CardStore) (card : String) : Attributes := (s.cards.get? card).getD .empty

/-- The value of an attribute on a card. -/
def get? (s : CardStore) (card name : String) : Option Int := (s.attributes card).get? name

/-- Whether a card takes a value for an attribute when it may hold `cap` attributes. -/
def accepts (s : CardStore) (card name : String) (cap : Int) : Bool :=
  !s.readOnly &&
    ((s.attributes card).contains name || decide (((s.attributes card).size : Int) < cap))

/-- Writes an attribute without asking. -/
def write (s : CardStore) (card name : String) (value : Int) : CardStore :=
  { s with cards := s.cards.put card ((s.attributes card).put name value) }

/-- Writes an attribute if the card takes it, and says whether it did. -/
def set (s : CardStore) (card name : String) (value cap : Int) : Bool × CardStore :=
  if s.accepts card name cap then (true, s.write card name value) else (false, s)

/-- The card that is written to gets the attribute. -/
@[simp] theorem attributes_write_self (s : CardStore) (card name : String) (value : Int) :
    (s.write card name value).attributes card = (s.attributes card).put name value := by
  simp [write, attributes]

/-- All other cards stay as they are. -/
theorem attributes_write_of_ne (s : CardStore) {card card' : String} (h : card ≠ card')
    (name : String) (value : Int) :
    (s.write card name value).attributes card' = s.attributes card' := by
  simp [write, attributes, h]

/-- A write changes one attribute of one card and nothing else. -/
@[simp] theorem get?_write (s : CardStore) (card card' name name' : String) (value : Int) :
    (s.write card name value).get? card' name' =
      if card = card' ∧ name = name' then some value else s.get? card' name' := by
  unfold get?
  by_cases hc : card = card'
  · subst hc
    simp
  · rw [attributes_write_of_ne s hc, if_neg fun h => hc h.1]

/-- The attributes that have values are those that are listed. -/
theorem mem_keys_iff {s : CardStore} {card name : String} :
    name ∈ (s.attributes card).keys ↔ s.get? card name ≠ none := by
  rw [← InsertionMap.contains_iff_mem_keys]
  exact Option.isSome_iff_ne_none

/-- A card that is listed has its attributes. -/
theorem get?_cards (s : CardStore) (card : String) :
    s.cards.get? card = if card ∈ s.cards.keys then some (s.attributes card) else none := by
  split
  · next hmem =>
    rw [← InsertionMap.contains_iff_mem_keys, InsertionMap.contains] at hmem
    obtain ⟨m, hm⟩ := Option.isSome_iff_exists.1 hmem
    rw [attributes, hm]
    rfl
  · next hmem =>
    rw [← InsertionMap.contains_iff_mem_keys] at hmem
    exact Option.not_isSome_iff_eq_none.1 hmem

/-- Stores that list the same cards, with the same attributes, are the same. -/
theorem ext_attributes {s s' : CardStore} (hreadOnly : s.readOnly = s'.readOnly)
    (hcards : s.cards.keys = s'.cards.keys)
    (h : ∀ card, s.attributes card = s'.attributes card) : s = s' := by
  have hmaps : s.cards = s'.cards := by
    refine InsertionMap.ext_get? hcards fun card => ?_
    rw [get?_cards, get?_cards, hcards, h card]
  obtain ⟨cards, readOnly⟩ := s
  obtain ⟨cards', readOnly'⟩ := s'
  obtain rfl : cards = cards' := hmaps
  obtain rfl : readOnly = readOnly' := hreadOnly
  rfl

/-- A card with attributes is listed. -/
theorem mem_keys_cards {s : CardStore} {card name : String}
    (h : name ∈ (s.attributes card).keys) : card ∈ s.cards.keys := by
  by_cases hcard : card ∈ s.cards.keys
  · exact hcard
  · have habsent : s.cards.get? card = none := by rw [get?_cards, if_neg hcard]
    rw [attributes, habsent] at h
    cases h

/-- A write that a card takes. -/
theorem set_of_accepts {s : CardStore} {card name : String} {cap : Int}
    (h : s.accepts card name cap = true) (value : Int) :
    s.set card name value cap = (true, s.write card name value) :=
  if_pos h

/-- A write that is refused leaves the store as it was. -/
theorem set_of_not_accepts {s : CardStore} {card name : String} {cap : Int}
    (h : s.accepts card name cap = false) (value : Int) :
    s.set card name value cap = (false, s) :=
  if_neg (by rw [h]; exact Bool.false_ne_true)

/-- An attribute that is on a card can be overwritten unless the store is read-only. -/
theorem accepts_of_contains {s : CardStore} {card name : String} (hs : s.readOnly = false)
    (h : (s.attributes card).contains name = true) (cap : Int) :
    s.accepts card name cap = true := by
  rw [accepts, hs, h]
  rfl

/-- An attribute that is on a card is overwritten, however many there are, unless the store is
read-only. -/
theorem set_of_get? {s : CardStore} {card name : String} {old : Int}
    (h : s.get? card name = some old) (value cap : Int) :
    s.set card name value cap =
      if s.readOnly then (false, s) else (true, s.write card name value) := by
  have hthere : (s.attributes card).contains name = true := by
    show (s.get? card name).isSome = true
    rw [h]
    rfl
  rcases hs : s.readOnly with _ | _
  · exact set_of_accepts (accepts_of_contains hs hthere cap) value
  · exact set_of_not_accepts (by rw [accepts, hs]; rfl) value

/-- **A card refuses** an attribute that it does not have when it is full; a store that is read-only
refuses all of them. -/
theorem accepts_eq_false_iff {s : CardStore} {card name : String} {cap : Int} :
    s.accepts card name cap = false ↔
      s.readOnly = true ∨
        (s.get? card name = none ∧ cap ≤ ((s.attributes card).size : Int)) := by
  have habsent : (s.attributes card).contains name = false ↔ s.get? card name = none :=
    Option.isSome_eq_false_iff.trans Option.isNone_iff_eq_none
  simp only [accepts, Bool.and_eq_false_iff, Bool.not_eq_false', Bool.or_eq_false_iff,
    decide_eq_false_iff_not, Int.not_lt, habsent]

/-- A card that refuses an attribute still refuses it after another one was written. -/
theorem accepts_write {s : CardStore} {card name name' : String} {cap : Int}
    (h : s.accepts card name cap = false) (h' : s.accepts card name' cap = true) (value : Int) :
    (s.write card name' value).accepts card name cap = false := by
  have hwritable : ¬ (s.readOnly = true ∨
      (s.get? card name' = none ∧ cap ≤ ((s.attributes card).size : Int))) := by
    rw [← accepts_eq_false_iff, h']
    exact Bool.false_ne_true.symm
  rcases accepts_eq_false_iff.1 h with hreadOnly | ⟨habsent, hfull⟩
  · exact absurd (Or.inl hreadOnly) hwritable
  have hthere : s.get? card name' ≠ none := fun hnone => hwritable (Or.inr ⟨hnone, hfull⟩)
  -- The attribute that is written is on the card already, so it is another one.
  have hne : name' ≠ name := by
    rintro rfl
    exact hthere habsent
  have hsize : ((s.write card name' value).attributes card).size = (s.attributes card).size := by
    rw [attributes_write_self, InsertionMap.size_put]
    exact if_pos (Option.isSome_iff_ne_none.2 hthere)
  refine accepts_eq_false_iff.2 (Or.inr ⟨?_, ?_⟩)
  · rw [get?_write, if_neg fun hsame => hne hsame.2]
    exact habsent
  · rw [hsize]
    exact hfull

end CardStore

end Tabletop
