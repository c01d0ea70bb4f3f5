/-!
# Maps in insertion order

A finite map that remembers the order in which its keys first came in.  Writing to a key that is
already there keeps its place.  Cards, attributes, alias tables and turn orders are such maps,
because the order of their keys shows.

## Main definitions

* `InsertionMap` — pairwise distinct keys with their values.
* `get?`, `contains`, `keys`, `size` — the content.
* `put`, `erase` — writing and removing one key.
* `ofList` — the map that results from writing the pairs one after another.

## Main results

* `get?_put`, `get?_erase` — reading after writing and after removing.
* `keys_put`, `keys_erase` — a new key goes to the end, an old one keeps its place.
* `size_put`, `size_erase` — what this does to the number of keys.
* `contains_iff_mem_keys`, `get?_eq_some_iff` — the content in terms of the lists.
* `ext_get?` — a map is known by its keys in order and their values.
* `write_of_mem`, `toList_ofList` — the list after writing, and after writing many pairs.
-/

namespace Tabletop

/-- A finite map whose keys are listed in the order of their first insertion. -/
structure InsertionMap (κ ν : Type) where
  /-- The keys and values in insertion order. -/
  toList : List (κ × ν)
  /-- No key occurs twice. -/
  distinct : (toList.map Prod.fst).Nodup

namespace InsertionMap

variable {κ ν : Type}

/-- Maps that list the same pairs are the same. -/
theorem ext {m m' : InsertionMap κ ν} (h : m.toList = m'.toList) : m = m' := by
  obtain ⟨l, hl⟩ := m
  obtain ⟨l', hl'⟩ := m'
  obtain rfl : l = l' := h
  rfl

/-- The map without keys. -/
def empty : InsertionMap κ ν := ⟨[], List.nodup_nil⟩

instance : Inhabited (InsertionMap κ ν) := ⟨empty⟩

/-- The keys in insertion order. -/
def keys (m : InsertionMap κ ν) : List κ := m.toList.map Prod.fst

/-- The values in insertion order. -/
def values (m : InsertionMap κ ν) : List ν := m.toList.map Prod.snd

/-- The number of keys. -/
def size (m : InsertionMap κ ν) : Nat := m.toList.length

/-- Whether there is no key. -/
def isEmpty (m : InsertionMap κ ν) : Bool := m.toList.isEmpty

/-- No key is listed twice. -/
theorem nodup_keys (m : InsertionMap κ ν) : m.keys.Nodup := m.distinct

/-- There are as many keys as pairs. -/
@[simp] theorem length_keys (m : InsertionMap κ ν) : m.keys.length = m.size :=
  List.length_map Prod.fst

variable [DecidableEq κ]

/-- The value of the first pair with the key. -/
def find (k : κ) : List (κ × ν) → Option ν
  | [] => none
  | (k', v) :: rest => if k' = k then some v else find k rest

/-- Replaces the value of the first pair with the key, or appends a pair. -/
def write (k : κ) (v : ν) : List (κ × ν) → List (κ × ν)
  | [] => [(k, v)]
  | (k', v') :: rest => if k' = k then (k, v) :: rest else (k', v') :: write k v rest

/-- Writing to a key that is there keeps the list of keys, and a new key is appended to it. -/
theorem map_fst_write (k : κ) (v : ν) (l : List (κ × ν)) :
    (write k v l).map Prod.fst =
      if k ∈ l.map Prod.fst then l.map Prod.fst else l.map Prod.fst ++ [k] := by
  induction l with
  | nil => simp [write]
  | cons p rest ih =>
    obtain ⟨k', v'⟩ := p
    by_cases h : k' = k
    · simp [write, h]
    · have h' : k ≠ k' := fun e => h e.symm
      simp only [write, h, if_false, List.map_cons, ih, List.mem_cons, h', false_or]
      split <;> simp

/-- Writing to a new key appends a pair. -/
theorem write_of_notMem {k : κ} {l : List (κ × ν)} (h : k ∉ l.map Prod.fst) (v : ν) :
    write k v l = l ++ [(k, v)] := by
  induction l with
  | nil => rfl
  | cons p rest ih =>
    obtain ⟨k', v'⟩ := p
    rw [List.map_cons, List.mem_cons, not_or] at h
    rw [write, if_neg fun e => h.1 e.symm, ih h.2, List.cons_append]

/-- Writing to a key that is there changes the value of its only pair. -/
theorem write_of_mem {k : κ} {l : List (κ × ν)} (hnodup : (l.map Prod.fst).Nodup)
    (h : k ∈ l.map Prod.fst) (v : ν) :
    write k v l = l.map fun p => if p.1 = k then (k, v) else p := by
  induction l with
  | nil => cases h
  | cons p rest ih =>
    obtain ⟨k', v'⟩ := p
    rw [List.map_cons, List.nodup_cons] at hnodup
    by_cases heq : k' = k
    · subst heq
      have hrest : (rest.map fun p => if p.1 = k' then (k', v) else p) = rest.map id := by
        refine List.map_congr_left fun p hp => if_neg fun hk => hnodup.1 ?_
        exact hk ▸ List.mem_map.2 ⟨p, hp, rfl⟩
      rw [write, if_pos rfl, List.map_cons, if_pos rfl, hrest, List.map_id]
    · have hmem : k ∈ rest.map Prod.fst := by
        rcases List.mem_cons.1 h with hk | hk
        · exact absurd hk.symm heq
        · exact hk
      rw [write, if_neg heq, List.map_cons, if_neg heq, ih hnodup.2 hmem]

/-- Writing keeps the keys pairwise distinct. -/
theorem nodup_write {k : κ} {v : ν} {l : List (κ × ν)} (h : (l.map Prod.fst).Nodup) :
    ((write k v l).map Prod.fst).Nodup := by
  rw [map_fst_write]
  split
  · exact h
  · next hk =>
    rw [List.nodup_append]
    refine ⟨h, by simp, ?_⟩
    intro a ha b hb
    rw [List.mem_singleton] at hb
    subst hb
    exact fun e => hk (e ▸ ha)

/-- The value of a key. -/
def get? (m : InsertionMap κ ν) (k : κ) : Option ν := find k m.toList

/-- Whether the key is there. -/
def contains (m : InsertionMap κ ν) (k : κ) : Bool := (m.get? k).isSome

/-- Writes a value to a key; a new key goes to the end. -/
def put (m : InsertionMap κ ν) (k : κ) (v : ν) : InsertionMap κ ν :=
  ⟨write k v m.toList, nodup_write m.distinct⟩

/-- Writes a value to a key that is not there yet. -/
def putNew (m : InsertionMap κ ν) (k : κ) (v : ν) : InsertionMap κ ν :=
  if m.contains k then m else m.put k v

/-- Removes a key. -/
def erase (m : InsertionMap κ ν) (k : κ) : InsertionMap κ ν :=
  ⟨m.toList.filter fun p => p.1 ≠ k,
    m.distinct.sublist (List.Sublist.map _ List.filter_sublist)⟩

/-- The map after writing the pairs one after another. -/
def ofList (pairs : List (κ × ν)) : InsertionMap κ ν :=
  pairs.foldl (fun m p => m.put p.1 p.2) empty

/-- Pairs with new keys that differ from each other come to the end of the list. -/
theorem toList_foldl_put {pairs : List (κ × ν)} {m : InsertionMap κ ν}
    (h : ((m.toList ++ pairs).map Prod.fst).Nodup) :
    (pairs.foldl (fun m p => m.put p.1 p.2) m).toList = m.toList ++ pairs := by
  induction pairs generalizing m with
  | nil => exact (List.append_nil _).symm
  | cons p pairs ih =>
    have hnew : p.1 ∉ m.toList.map Prod.fst := by
      rw [List.map_append, List.map_cons, List.nodup_append] at h
      exact fun hmem => h.2.2 p.1 hmem p.1 List.mem_cons_self rfl
    have hput : (m.put p.1 p.2).toList = m.toList ++ [p] := write_of_notMem hnew p.2
    have happend : m.toList ++ p :: pairs = (m.put p.1 p.2).toList ++ pairs := by
      rw [hput, List.append_assoc]
      rfl
    rw [happend] at h ⊢
    exact ih h

/-- Pairs whose keys differ from each other are listed as they are. -/
theorem toList_ofList {pairs : List (κ × ν)} (h : (pairs.map Prod.fst).Nodup) :
    (ofList pairs).toList = pairs :=
  toList_foldl_put h

/-! ### Reading after writing -/

/-- The map without keys has no value for any key. -/
@[simp] theorem get?_empty (k : κ) : (empty : InsertionMap κ ν).get? k = none := rfl

/-- The list form of reading after writing. -/
theorem find_write (k k' : κ) (v : ν) (l : List (κ × ν)) :
    find k' (write k v l) = if k = k' then some v else find k' l := by
  induction l with
  | nil => simp [write, find]
  | cons p rest ih =>
    obtain ⟨a, b⟩ := p
    by_cases ha : a = k
    · subst ha
      by_cases hk : a = k' <;> simp [write, find, hk]
    · by_cases hk : k = k'
      · subst hk
        simp [write, find, ha, ih]
      · simp [write, find, ha, ih, hk]

/-- Reading a key after writing one. -/
@[simp] theorem get?_put (m : InsertionMap κ ν) (k k' : κ) (v : ν) :
    (m.put k v).get? k' = if k = k' then some v else m.get? k' :=
  find_write k k' v m.toList

/-- The list form of reading after removing. -/
theorem find_filter_ne (k k' : κ) (l : List (κ × ν)) :
    find k' (l.filter fun p => p.1 ≠ k) = if k = k' then none else find k' l := by
  induction l with
  | nil => simp [find]
  | cons p rest ih =>
    obtain ⟨a, b⟩ := p
    by_cases ha : a = k
    · subst ha
      by_cases hk : a = k' <;> simp_all [find]
    · by_cases hk : k = k'
      · subst hk
        simp_all [find]
      · simp_all [find]

/-- Reading a key after removing one. -/
@[simp] theorem get?_erase (m : InsertionMap κ ν) (k k' : κ) :
    (m.erase k).get? k' = if k = k' then none else m.get? k' :=
  find_filter_ne k k' m.toList

/-- Whether a key is there after writing one. -/
@[simp] theorem contains_put (m : InsertionMap κ ν) (k k' : κ) (v : ν) :
    (m.put k v).contains k' = (decide (k = k') || m.contains k') := by
  rw [contains, get?_put]
  by_cases hk : k = k'
  · simp [hk]
  · simp [hk, contains]

/-- Whether a key is there after removing one. -/
@[simp] theorem contains_erase (m : InsertionMap κ ν) (k k' : κ) :
    (m.erase k).contains k' = (!decide (k = k') && m.contains k') := by
  rw [contains, get?_erase]
  by_cases hk : k = k'
  · simp [hk]
  · simp [hk, contains]

/-- Writing only to a new key leaves the values of the others and of an old one. -/
@[simp] theorem get?_putNew (m : InsertionMap κ ν) (k k' : κ) (v : ν) :
    (m.putNew k v).get? k' = if k = k' then some ((m.get? k).getD v) else m.get? k' := by
  unfold putNew
  rcases hg : m.get? k with _ | w
  · have hc : m.contains k = false := by rw [contains, hg]; rfl
    simp [hc]
  · have hc : m.contains k = true := by rw [contains, hg]; rfl
    by_cases hk : k = k'
    · subst hk
      simp [hc, hg]
    · simp [hc, hk]

/-! ### Keys -/

/-- A list of pairs has a value for the keys in it. -/
theorem isSome_find_iff (k : κ) (l : List (κ × ν)) :
    (find k l).isSome = true ↔ k ∈ l.map Prod.fst := by
  induction l with
  | nil => simp [find]
  | cons p rest ih =>
    obtain ⟨a, b⟩ := p
    by_cases ha : a = k
    · simp [find, ha]
    · have ha' : ¬k = a := fun e => ha e.symm
      rw [find, if_neg ha, ih]
      simp [ha']

/-- A key is there exactly if it is listed. -/
theorem contains_iff_mem_keys (m : InsertionMap κ ν) (k : κ) :
    m.contains k = true ↔ k ∈ m.keys :=
  isSome_find_iff k m.toList

/-- A pair of the list gives the value of its key, as the keys are distinct. -/
theorem find_eq_some_iff {k : κ} {v : ν} {l : List (κ × ν)} (h : (l.map Prod.fst).Nodup) :
    find k l = some v ↔ (k, v) ∈ l := by
  induction l with
  | nil => simp [find]
  | cons p rest ih =>
    obtain ⟨a, b⟩ := p
    rw [List.map_cons, List.nodup_cons] at h
    by_cases ha : a = k
    · subst ha
      have hnot : (a, v) ∉ rest := fun hm => h.1 (List.mem_map.2 ⟨(a, v), hm, rfl⟩)
      simp [find, hnot, eq_comm]
    · have ha' : ¬k = a := fun e => ha e.symm
      rw [find, if_neg ha, ih h.2]
      simp [ha']

/-- The value of a key is the one in its pair. -/
theorem get?_eq_some_iff (m : InsertionMap κ ν) {k : κ} {v : ν} :
    m.get? k = some v ↔ (k, v) ∈ m.toList :=
  find_eq_some_iff m.distinct

/-- Maps that list the same keys, with the same values, are the same. -/
theorem ext_get? {m m' : InsertionMap κ ν} (hkeys : m.keys = m'.keys)
    (hget : ∀ k, m.get? k = m'.get? k) : m = m' := by
  have hlength : m.toList.length = m'.toList.length := by
    simpa only [keys, List.length_map] using congrArg List.length hkeys
  refine ext (List.ext_getElem hlength fun i hi hi' => ?_)
  have hfst : m.toList[i].1 = m'.toList[i].1 := by
    have hkey : m.keys[i]? = m'.keys[i]? := by rw [hkeys]
    simpa [keys, hi, hi'] using hkey
  have hvalue : m.get? m.toList[i].1 = some m.toList[i].2 :=
    m.get?_eq_some_iff.2 (List.getElem_mem hi)
  have hvalue' : m'.get? m'.toList[i].1 = some m'.toList[i].2 :=
    m'.get?_eq_some_iff.2 (List.getElem_mem hi')
  rw [hfst, hget, hvalue'] at hvalue
  exact Prod.ext hfst (Option.some.inj hvalue).symm

/-- A new key goes to the end, an old one keeps its place. -/
theorem keys_put (m : InsertionMap κ ν) (k : κ) (v : ν) :
    (m.put k v).keys = if k ∈ m.keys then m.keys else m.keys ++ [k] :=
  map_fst_write k v m.toList

/-- A new key makes the map larger by one, an old one does not. -/
theorem size_put (m : InsertionMap κ ν) (k : κ) (v : ν) :
    (m.put k v).size = if m.contains k then m.size else m.size + 1 := by
  rw [← length_keys, keys_put]
  by_cases hk : k ∈ m.keys
  · rw [if_pos hk, if_pos ((m.contains_iff_mem_keys k).2 hk), length_keys]
  · have hc : ¬m.contains k = true := fun h => hk ((m.contains_iff_mem_keys k).1 h)
    rw [if_neg hk, if_neg hc, List.length_append, length_keys]
    rfl

/-- A pair of the list after writing is the one that was written, or was there before. -/
theorem mem_write {k : κ} {v : ν} {l : List (κ × ν)} {p : κ × ν} (h : p ∈ write k v l) :
    p = (k, v) ∨ p ∈ l := by
  induction l with
  | nil => exact Or.inl (List.mem_singleton.1 h)
  | cons q rest ih =>
    obtain ⟨k', v'⟩ := q
    rw [write] at h
    split at h
    · rcases List.mem_cons.1 h with h | h
      · exact Or.inl h
      · exact Or.inr (List.mem_cons_of_mem _ h)
    · rcases List.mem_cons.1 h with h | h
      · exact Or.inr (h ▸ List.mem_cons_self)
      · exact (ih h).imp_right fun h => List.mem_cons_of_mem _ h

/-- Removing a key leaves the others in their order. -/
theorem keys_erase (m : InsertionMap κ ν) (k : κ) :
    (m.erase k).keys = m.keys.filter fun k' => k' ≠ k := by
  simp only [keys, erase, List.filter_map]
  rfl

/-- Removing a key that is there makes the map smaller by one. -/
theorem size_erase (m : InsertionMap κ ν) {k : κ} (h : m.contains k = true) :
    (m.erase k).size + 1 = m.size := by
  have hmem : k ∈ m.keys := (m.contains_iff_mem_keys k).1 h
  have hkeys : (m.erase k).keys = m.keys.erase k := by
    rw [keys_erase, m.nodup_keys.erase_eq_filter k]
    exact List.filter_congr fun k' _ => by rw [Bool.eq_iff_iff, decide_eq_true_eq, bne_iff_ne]
  have hpos : 0 < m.keys.length := List.length_pos_of_mem hmem
  rw [← length_keys, hkeys, List.length_erase_of_mem hmem, ← length_keys]
  omega

end InsertionMap

end Tabletop
