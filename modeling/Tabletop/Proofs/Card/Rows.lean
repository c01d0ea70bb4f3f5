import Tabletop.Card.Store
import Tabletop.Row.CardTable

/-!
# The rows of cards

A table of attributes holds the attributes of all cards in one list of rows, in the order in which
they came.  The rows of one card among them are its attributes, and each query on the table is an
operation on these.

A row is checked when it is read, never when it is written.  So a row may be stored that does not
fit, and then each attempt to read it gives its faults.

## Main definitions

* `AttributeRow.cells`, `rowFaults` — the row of an attribute, and what does not fit in it.
* `pairsOf` — the attributes of a card among the rows of all cards.
* `Mirrors` — a table holds the attributes of a store.

## Main results

* `ofMembers_cells` — a row is read back, or its faults are given.
* `Mirrors.get?_apply`, `Mirrors.count_apply`, `Mirrors.all_apply` — what reading a table gives.
* `Mirrors.update`, `Mirrors.insert` — writing to the table is writing to the store.
* `Mirrors.nodup` — no two rows are about the same attribute of the same card.
-/

namespace Tabletop.Row

open Json

/-! ### Results and faults -/

/-- A result, unless there are faults. -/
def verdict {α : Type} (faults : List FieldFault) (a : α) : Checked α :=
  if faults = [] then .ok a else .error faults

theorem verdict_nil {α : Type} (a : α) : verdict [] a = .ok a := rfl

theorem verdict_of_ne_nil {α : Type} {faults : List FieldFault} (h : faults ≠ []) (a : α) :
    verdict faults a = .error faults := if_neg h

theorem verdict_eq_ok {α : Type} {faults : List FieldFault} {a b : α}
    (h : verdict faults a = .ok b) : faults = [] ∧ a = b := by
  unfold verdict at h
  split at h
  · next hnil => exact ⟨hnil, Except.ok.inj h⟩
  · cases h

theorem map_verdict {α β : Type} (f : α → β) (faults : List FieldFault) (a : α) :
    (verdict faults a).map f = verdict faults (f a) := by
  by_cases h : faults = []
  · simp [verdict, h, Except.map]
  · simp [verdict, h, Except.map]

/-- The faults of two results are given together. -/
theorem both_verdict {α β : Type} (faults faults' : List FieldFault) (a : α) (b : β) :
    both (verdict faults a) (verdict faults' b) = verdict (faults ++ faults') (a, b) := by
  by_cases h : faults = []
  · by_cases h' : faults' = []
    · simp [verdict, both, h, h']
    · simp [verdict, both, h, h']
  · by_cases h' : faults' = []
    · simp [verdict, both, h, h']
    · simp [verdict, both, h, h']

/-- The fault of a field that holds a text, if it has one. -/
def textFaults (field : String) (most : Option Nat) (s : String) : List FieldFault :=
  if s = "" then [⟨field, .textTooShort⟩]
  else if ∃ n ∈ most, n < s.length then [⟨field, .textTooLong⟩]
  else []

theorem textFaults_eq_nil_iff {field s : String} {most : Option Nat} :
    textFaults field most s = [] ↔ s ≠ "" ∧ ∀ n ∈ most, s.length ≤ n := by
  unfold textFaults
  by_cases hempty : s = ""
  · simp [hempty]
  · simp [hempty]

theorem readText_string (most : Option Nat) (s : String) :
    readText 1 most (.string s) =
      if s = "" then .error .textTooShort
      else if ∃ n ∈ most, n < s.length then .error .textTooLong
      else .ok s := by
  have hlength : s.length < 1 ↔ s = "" := by
    rw [Nat.lt_one_iff, String.length_eq_zero_iff]
  simp only [readText, hlength]
  rcases most with _ | n
  · simp
  · simp

/-- A field that holds a text is read as that text, unless it is too short or too long. -/
theorem required_readText {members : List (String × Value)} {field s : String}
    (h : field? members field = some (.string s)) (most : Option Nat) :
    required (readText 1 most) members field = verdict (textFaults field most s) s := by
  simp only [required, h, readText_string, textFaults]
  by_cases hempty : s = ""
  · rw [if_pos hempty, if_pos hempty]
    rfl
  · rw [if_neg hempty, if_neg hempty]
    by_cases hlong : ∃ n ∈ most, n < s.length
    · rw [if_pos hlong, if_pos hlong]
      rfl
    · rw [if_neg hlong, if_neg hlong]
      rfl

/-! ### One row -/

/-- The cells of the row of an attribute. -/
def AttributeRow.cells (r : AttributeRow) : Cells :=
  [("card_id", .string r.card), ("name", .string r.name), ("value", .int r.value)]

@[simp] theorem field?_cells_card (r : AttributeRow) :
    field? r.cells "card_id" = some (.string r.card) := by
  simp [field?, AttributeRow.cells, InsertionMap.find]

@[simp] theorem field?_cells_name (r : AttributeRow) :
    field? r.cells "name" = some (.string r.name) := by
  simp [field?, AttributeRow.cells, InsertionMap.find]

@[simp] theorem field?_cells_value (r : AttributeRow) :
    field? r.cells "value" = some (.int r.value) := by
  simp [field?, AttributeRow.cells, InsertionMap.find]

@[simp] theorem field?_cells_moment (r : AttributeRow) : field? r.cells "updated_at" = none := by
  simp [field?, AttributeRow.cells, InsertionMap.find]

/-- What does not fit in the row of an attribute; the value of an attribute always fits. -/
def rowFaults (card name : String) : List FieldFault :=
  textFaults "card_id" none card ++ textFaults "name" (some maxNameLength) name

/-- **A row fits** if it names a card, and an attribute whose name is not too long. -/
theorem rowFaults_eq_nil_iff {card name : String} :
    rowFaults card name = [] ↔ card ≠ "" ∧ name ≠ "" ∧ name.length ≤ maxNameLength := by
  simp [rowFaults, textFaults_eq_nil_iff]

/-- **The row of an attribute** is read back, unless it has faults. -/
theorem ofMembers_cells (r : AttributeRow) :
    AttributeRow.ofMembers r.cells = verdict (rowFaults r.card r.name) r := by
  have hvalue : required readInteger r.cells "value" = verdict [] r.value := by
    simp only [required, field?_cells_value]
    rfl
  have hmoment : optional false readMoment r.cells "updated_at" = verdict [] false := by
    simp only [optional, field?_cells_moment]
    rfl
  rw [AttributeRow.ofMembers, required_readText (field?_cells_card r),
    required_readText (field?_cells_name r), hvalue, hmoment, both_verdict, both_verdict,
    both_verdict, map_verdict, List.append_nil, List.append_nil]
  rfl

/-! ### The conditions of queries -/

theorem meets_ofCard (card : String) (r : AttributeRow) :
    meets [CardTable.ofCard card] r.cells = (r.card == card) := by
  simp [Filter.holds, CardTable.ofCard]

theorem meets_named (card name : String) (r : AttributeRow) :
    meets [CardTable.ofCard card, CardTable.named name] r.cells =
      (r.card == card && r.name == name) := by
  simp [Filter.holds, CardTable.ofCard, CardTable.named]

theorem merge_cells (r : AttributeRow) (value : Int) :
    merge r.cells [("value", .int value)] = { r with value := value }.cells := by
  simp [merge, AttributeRow.cells, InsertionMap.write]

theorem filter_ofCard (card : String) (rows : List AttributeRow) :
    (rows.map AttributeRow.cells).filter (meets [CardTable.ofCard card]) =
      (rows.filter fun r => r.card == card).map AttributeRow.cells := by
  rw [List.filter_map]
  exact congrArg _ (List.filter_congr fun r _ => meets_ofCard card r)

theorem filter_named (card name : String) (rows : List AttributeRow) :
    (rows.map AttributeRow.cells).filter
        (meets [CardTable.ofCard card, CardTable.named name]) =
      (rows.filter fun r => r.card == card && r.name == name).map AttributeRow.cells := by
  rw [List.filter_map]
  exact congrArg _ (List.filter_congr fun r _ => meets_named card name r)

/-! ### The attributes of a card -/

/-- The attributes of a card among the rows of all cards. -/
def pairsOf (card : String) (rows : List AttributeRow) : List (String × Int) :=
  (rows.filter fun r => r.card == card).map fun r => (r.name, r.value)

theorem pairsOf_cons_self (r : AttributeRow) (rows : List AttributeRow) :
    pairsOf r.card (r :: rows) = (r.name, r.value) :: pairsOf r.card rows := by
  simp [pairsOf]

theorem pairsOf_cons_of_ne {card : String} {r : AttributeRow} (h : r.card ≠ card)
    (rows : List AttributeRow) : pairsOf card (r :: rows) = pairsOf card rows := by
  simp [pairsOf, h]

/-- A row that comes last is the last of its card. -/
theorem pairsOf_append_singleton (card : String) (rows : List AttributeRow) (r : AttributeRow) :
    pairsOf card (rows ++ [r]) =
      if r.card = card then pairsOf card rows ++ [(r.name, r.value)] else pairsOf card rows := by
  by_cases h : r.card = card
  · simp [pairsOf, h]
  · simp [pairsOf, h]

/-- The first row about an attribute gives its value. -/
theorem find_pairsOf (card name : String) (rows : List AttributeRow) :
    InsertionMap.find name (pairsOf card rows) =
      ((rows.filter fun r => r.card == card && r.name == name).head?).map AttributeRow.value := by
  induction rows with
  | nil => rfl
  | cons r rows ih =>
    by_cases hcard : r.card = card
    · subst hcard
      rw [pairsOf_cons_self, InsertionMap.find]
      by_cases hname : r.name = name
      · simp [hname]
      · simp [hname, ih]
    · rw [pairsOf_cons_of_ne hcard, ih]
      simp [hcard]

/-- Giving an attribute a new value changes its pair. -/
theorem pairsOf_map (card name other : String) (value : Int) (rows : List AttributeRow) :
    pairsOf other (rows.map fun r =>
        if r.card == card && r.name == name then { r with value := value } else r) =
      if card = other then
        (pairsOf other rows).map fun p => if p.1 = name then (name, value) else p
      else pairsOf other rows := by
  induction rows with
  | nil => simp [pairsOf]
  | cons r rows ih =>
    rw [List.map_cons]
    by_cases hcard : r.card = other
    · subst hcard
      by_cases hself : card = r.card
      · subst hself
        by_cases hname : r.name = name
        · simp_all [pairsOf]
        · simp_all [pairsOf]
      · have hne : r.card ≠ card := fun h => hself h.symm
        simp_all [pairsOf]
    · have hkept : (if r.card == card && r.name == name then { r with value := value }
          else r).card = r.card := by
        split
        · rfl
        · rfl
      rw [pairsOf_cons_of_ne (by rw [hkept]; exact hcard), ih, pairsOf_cons_of_ne hcard]

/-- Rows differ in their card or in their name if no card has two rows of one name. -/
theorem nodup_of_pairsOf {rows : List AttributeRow}
    (h : ∀ card, ((pairsOf card rows).map Prod.fst).Nodup) :
    (rows.map fun r => (r.card, r.name)).Nodup := by
  induction rows with
  | nil => exact List.nodup_nil
  | cons r rows ih =>
    rw [List.map_cons, List.nodup_cons]
    constructor
    · intro hmem
      obtain ⟨r', hr', hsame⟩ := List.mem_map.1 hmem
      obtain ⟨hcard, hname⟩ := Prod.mk.inj hsame
      have hself := h r.card
      rw [pairsOf_cons_self, List.map_cons, List.nodup_cons] at hself
      refine hself.1 (List.mem_map.2 ⟨(r'.name, r'.value), ?_, hname⟩)
      exact List.mem_map.2 ⟨r', List.mem_filter.2 ⟨hr', by simpa using hcard⟩, rfl⟩
    · apply ih
      intro card
      by_cases hcard : r.card = card
      · subst hcard
        have hself := h r.card
        rw [pairsOf_cons_self, List.map_cons, List.nodup_cons] at hself
        exact hself.2
      · have hother := h card
        rwa [pairsOf_cons_of_ne hcard] at hother

/-! ### Reading all rows of a card -/

/-- The faults of the first row of a card that has any, given the names in its rows. -/
def firstFaults (card : String) : List String → List FieldFault
  | [] => []
  | name :: names =>
    if rowFaults card name = [] then firstFaults card names else rowFaults card name

theorem firstFaults_eq_nil_iff {card : String} {names : List String} :
    firstFaults card names = [] ↔ ∀ name ∈ names, rowFaults card name = [] := by
  induction names with
  | nil => simp [firstFaults]
  | cons name names ih =>
    by_cases h : rowFaults card name = []
    · simp [firstFaults, h, ih]
    · simp [firstFaults, h]

theorem readRows_cells {card : String} {rows : List AttributeRow}
    (h : ∀ r ∈ rows, r.card = card) :
    CardTable.readRows (rows.map AttributeRow.cells) =
      verdict (firstFaults card (rows.map AttributeRow.name)) rows := by
  induction rows with
  | nil => rfl
  | cons r rows ih =>
    rw [List.forall_mem_cons] at h
    rw [List.map_cons, CardTable.readRows, ofMembers_cells, ih h.2, h.1, List.map_cons, firstFaults]
    by_cases hfaults : rowFaults card r.name = []
    · rw [hfaults, verdict_nil, if_pos rfl]
      by_cases hrest : firstFaults card (rows.map AttributeRow.name) = []
      · rw [hrest]
        rfl
      · rw [verdict_of_ne_nil hrest, verdict_of_ne_nil hrest]
        rfl
    · rw [if_neg hfaults, verdict_of_ne_nil hfaults, verdict_of_ne_nil hfaults]
      rfl

/-! ### Tables that hold a store -/

/-- A table that counts its rows holds the attributes of a store that takes values: the rows of each
card are its attributes. -/
structure Mirrors (rows : List AttributeRow) (t : Table) (store : CardStore) : Prop where
  cells : t.rows = rows.map AttributeRow.cells
  pairs : ∀ card, pairsOf card rows = (store.attributes card).toList
  counts : t.counts = true
  writable : store.readOnly = false

theorem mirrors_empty (log : List Query) : Mirrors [] ⟨[], log, true⟩ .empty where
  cells := rfl
  pairs := fun _ => rfl
  counts := rfl
  writable := rfl

namespace Mirrors

variable {rows : List AttributeRow} {t : Table} {store : CardStore}

/-- Queries that only look leave what the table holds. -/
theorem relog (h : Mirrors rows t store) (log : List Query) :
    Mirrors rows { t with log := log } store where
  cells := h.cells
  pairs := h.pairs
  counts := h.counts
  writable := h.writable

/-- No two rows are about the same attribute of the same card. -/
theorem nodup (h : Mirrors rows t store) :
    (t.rows.map fun row => (field? row "card_id", field? row "name")).Nodup := by
  have hrows : (rows.map fun r => (r.card, r.name)).Nodup := by
    apply nodup_of_pairsOf
    intro card
    rw [h.pairs]
    exact (store.attributes card).distinct
  rw [h.cells, List.map_map]
  refine List.Pairwise.map _ (fun r r' hne hsame => hne ?_) (List.pairwise_map.1 hrows)
  simpa using hsame

theorem get?_eq_find (h : Mirrors rows t store) (card name : String) :
    store.get? card name =
      ((rows.filter fun r => r.card == card && r.name == name).head?).map AttributeRow.value := by
  rw [← find_pairsOf, h.pairs]
  rfl

/-- **Reading an attribute** from the table gives its value, or the faults of its row. -/
theorem get?_apply (h : Mirrors rows t store) (card name : String) :
    ∃ log, CardTable.get? card name t =
      (match store.get? card name with
        | none => .ok none
        | some n => verdict (rowFaults card name) (some n),
      { t with log := log }) := by
  refine ⟨t.log ++ [⟨.select "*", [CardTable.ofCard card, CardTable.named name]⟩], ?_⟩
  rw [CardTable.get?, Access.bind_apply, select_apply, h.cells, filter_named, h.get?_eq_find]
  cases hfound : rows.filter fun r => r.card == card && r.name == name with
  | nil => rfl
  | cons r rest =>
    have hr := List.mem_filter.1 (hfound ▸ List.mem_cons_self : r ∈ rows.filter _)
    rw [Bool.and_eq_true, beq_iff_eq, beq_iff_eq] at hr
    simp only [List.map_cons, List.head?_cons, Option.map_some, Access.bind_apply,
      accept_apply, ofMembers_cells, hr.2.1, hr.2.2]
    by_cases hfaults : rowFaults card name = []
    · simp only [hfaults, verdict_nil, Access.pure_apply]
    · simp only [verdict_of_ne_nil hfaults]

/-- **Counting the rows of a card** gives the number of its attributes. -/
theorem count_apply (h : Mirrors rows t store) (card : String) :
    ∃ log, CardTable.count card t = (.ok (store.attributes card).size, { t with log := log }) := by
  refine ⟨t.log ++ [⟨.select "name", [CardTable.ofCard card]⟩], ?_⟩
  have hsize : ((rows.filter fun r => r.card == card).map AttributeRow.cells).length =
      (store.attributes card).size := by
    rw [InsertionMap.size, ← h.pairs, pairsOf, List.length_map, List.length_map]
  rw [CardTable.count, countRows_apply, h.counts, if_pos rfl, h.cells, filter_ofCard, hsize]

/-- **Reading all attributes of a card** gives them in their order, or the faults of a row. -/
theorem all_apply (h : Mirrors rows t store) (card : String) :
    ∃ log, CardTable.all card t =
      (verdict (firstFaults card (store.attributes card).keys) (store.attributes card),
        { t with log := log }) := by
  refine ⟨t.log ++ [⟨.select "*", [CardTable.ofCard card]⟩], ?_⟩
  have hcard : ∀ r ∈ rows.filter fun r => r.card == card, r.card = card := by
    intro r hr
    simpa using (List.mem_filter.1 hr).2
  have hnames : (rows.filter fun r => r.card == card).map AttributeRow.name =
      (store.attributes card).keys := by
    rw [InsertionMap.keys, ← h.pairs, pairsOf, List.map_map]
    rfl
  have hlisted : InsertionMap.ofList (pairsOf card rows) = store.attributes card := by
    apply InsertionMap.ext
    rw [h.pairs, InsertionMap.toList_ofList (store.attributes card).distinct]
  rw [CardTable.all, Access.bind_apply, select_apply, h.cells, filter_ofCard]
  simp only [Access.bind_apply, accept_apply, readRows_cells hcard, hnames]
  by_cases hfaults : firstFaults card (store.attributes card).keys = []
  · simp only [hfaults, verdict_nil, Access.pure_apply]
    rw [← hlisted]
    rfl
  · simp only [verdict_of_ne_nil hfaults]

/-- **Updating the row of an attribute** is writing it to the store. -/
theorem update (h : Mirrors rows t store) {card name : String}
    (hthere : store.get? card name ≠ none) (value : Int) (log : List Query) :
    ∃ rows', Mirrors rows'
      { t with
        rows := t.rows.map fun row =>
          if meets [CardTable.ofCard card, CardTable.named name] row then
            merge row [("value", .int value)]
          else row
        log := log }
      (store.write card name value) := by
  refine ⟨rows.map fun r =>
    if r.card == card && r.name == name then { r with value := value } else r, ?_, ?_, h.counts,
    h.writable⟩
  · rw [h.cells, List.map_map, List.map_map]
    refine List.map_congr_left fun r _ => ?_
    simp only [Function.comp_apply, meets_named, merge_cells]
    split
    · rfl
    · rfl
  · intro other
    rw [pairsOf_map, h.pairs]
    split
    · next heq =>
      subst heq
      rw [CardStore.attributes_write_self]
      exact (InsertionMap.write_of_mem (store.attributes card).distinct
        (CardStore.mem_keys_iff.2 hthere) value).symm
    · next hne => rw [CardStore.attributes_write_of_ne store hne]

/-- **Appending a row** for a new attribute is writing it to the store. -/
theorem insert (h : Mirrors rows t store) {card name : String}
    (hnew : store.get? card name = none) (value : Int) (log : List Query) :
    ∃ rows', Mirrors rows'
      { t with rows := t.rows ++ [AttributeRow.cells ⟨card, name, value⟩], log := log }
      (store.write card name value) := by
  refine ⟨rows ++ [⟨card, name, value⟩], ?_, ?_, h.counts, h.writable⟩
  · rw [h.cells, List.map_append]
    rfl
  · intro other
    rw [pairsOf_append_singleton, h.pairs]
    split
    · next heq =>
      subst heq
      rw [CardStore.attributes_write_self]
      exact (InsertionMap.write_of_notMem (fun hmem => CardStore.mem_keys_iff.1 hmem hnew)
        value).symm
    · next hne => rw [CardStore.attributes_write_of_ne store hne]

end Mirrors

end Tabletop.Row
