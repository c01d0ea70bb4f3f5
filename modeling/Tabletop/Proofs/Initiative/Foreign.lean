import Tabletop.Proofs.Initiative.Arrivals
import Tabletop.Proofs.Initiative.Removal

/-!
# Turn orders from the texts of others

A text that is read as a turn order may have been written by anyone.  Its fields may stand in any
sequence or be missing, the place of the turn may be beyond the end, and the next rank may be one
that is there already.  Reading mends the place and the next rank, so whatever was read can be
worked on: the turn is always at an entry, and a new name goes behind all that have its value.

Names are taken from a text as they stand, while all that is done by name first drops the blanks
around it.  So an entry is found by its own name only if there are no blanks around that name.
Names that are added have none, and no action brings any.

## Main definitions

* `Safe` — what a turn order must be like to be worked on.
* `AnswersToName` — an entry can be removed by its name, and given another value.

## Main results

* `storable_stateAfter` — what actions do to a storable order.
* `TurnOrder.display_put_of_none` — where a new name is displayed.
* `safe_of_storable` — a storable order is safe.
* `safe_stateAfter` — **whatever text was read, and whatever is done then, the order is safe.**
* `answersToName_iff` — an entry answers to its name if there are no blanks around it.
* `answersToName_stateAfter` — **all listed entries do, if the text that was read had no such
  blanks.**
-/

namespace Tabletop.Initiative

open Row Text

/-- **Whatever is done to a storable order, it stays storable.** -/
theorem storable_stateAfter (actions : List OrderAction) {o : TurnOrder} (ho : o.Storable) :
    (stateAfter actions o).Storable := by
  induction actions generalizing o with
  | nil => exact ho
  | cons action actions ih => exact ih (action.storable_act ho)

/-! ### New names -/

namespace TurnOrder

variable {o : TurnOrder}

/-- An entry is what the order knows about its name. -/
theorem get?_standings_of_mem {e : Entry} (he : e ∈ o.entries) :
    o.standings.get? e.name = some ⟨e.value, e.rank⟩ := get?_standings_iff.2 he

/-- **A new name is displayed behind all entries of its value, and before those of a lower one.**
All others are displayed as they were. -/
theorem display_put_of_none {name : String} (hnew : o.standings.get? name = none)
    (hrank : ∀ e ∈ o.entries, e.rank < o.nextRank) (value : Int) :
    ∃ above below, o.display = above ++ below ∧
      (o.put name value).2.display = above ++ ⟨name, value, o.nextRank⟩ :: below ∧
      (∀ e ∈ above, value ≤ e.value) ∧ ∀ e ∈ below, e.value < value := by
  have hentries := entries_put_of_none hnew value
  have hmem : ⟨name, value, o.nextRank⟩ ∈ (o.put name value).2.display := by
    rw [mem_display, hentries]
    exact List.mem_append_right _ List.mem_cons_self
  obtain ⟨above, below, hsplit⟩ := List.append_of_mem hmem
  have hothers := name_ne_of_display hsplit
  -- Without the new entry both display the same, as sorting keeps what is left in its order.
  have hdisplay : o.display = above ++ below := by
    have hold : ∀ e ∈ o.entries, decide (e.name ≠ name) = true := by
      intro e he
      rw [decide_eq_true_eq]
      rintro rfl
      rw [get?_standings_of_mem he] at hnew
      cases hnew
    have htrans : ∀ a b c, actsBefore a b = true → actsBefore b c = true → actsBefore a c = true :=
      fun _ _ _ => actsBefore_trans
    calc o.display
        = ((o.put name value).2.entries.filter fun e => decide (e.name ≠ name)).mergeSort
            actsBefore := by
          rw [hentries, List.filter_append, List.filter_eq_self.2 hold,
            List.filter_cons_of_neg (by simp), List.filter_nil, List.append_nil, display]
      _ = (o.put name value).2.display.filter fun e => decide (e.name ≠ name) :=
          mergeSort_filter htrans actsBefore_total _ _
      _ = above ++ below := by rw [hsplit, filter_name hothers]
  have hsorted := (o.put name value).2.pairwise_display
  rw [hsplit, List.pairwise_append, List.pairwise_cons] at hsorted
  refine ⟨above, below, hdisplay, hsplit, ?_, ?_⟩
  · intro e he
    have hbefore := hsorted.2.2 e he _ List.mem_cons_self
    simp only [actsBefore, Bool.or_eq_true, Bool.and_eq_true, decide_eq_true_eq] at hbefore
    omega
  · -- An entry of the same value would act before, as its rank is lower.
    intro e he
    have hbefore := hsorted.2.1.1 e he
    have hlower : e.rank < o.nextRank :=
      hrank e (mem_display.1 (hdisplay ▸ List.mem_append_right above he))
    simp only [actsBefore, Bool.or_eq_true, Bool.and_eq_true, decide_eq_true_eq] at hbefore
    omega

/-! ### The turn -/

/-- The turn is passed on to the entry at the next place. -/
theorem advance_of_pos (hpos : 0 < o.size) :
    ∃ hplace : (o.index + 1) % o.size < o.display.length,
      o.advance =
        .ok (o.display[(o.index + 1) % o.size], { o with index := (o.index + 1) % o.size }) := by
  have hplace : (o.index + 1) % o.size < o.display.length := by
    rw [length_display]
    exact Nat.mod_lt _ hpos
  have hnext : current? { o with index := (o.index + 1) % o.size } =
      some o.display[(o.index + 1) % o.size] := List.getElem?_eq_getElem hplace
  refine ⟨hplace, ?_⟩
  simp only [advance, hnext]

/-- No one has the turn of an order without entries. -/
theorem current?_of_size_eq_zero (h : o.size = 0) : o.current? = none := by
  rw [← length_display] at h
  exact List.getElem?_eq_none (by omega)

/-- The turn of an order without entries cannot be passed on. -/
theorem advance_of_size_eq_zero (h : o.size = 0) : o.advance = .error .emptyOrder := by
  have hnext : current? { o with index := (o.index + 1) % o.size } = none :=
    current?_of_size_eq_zero h
  simp only [advance, hnext]

end TurnOrder

/-! ### Orders that are safe to work on -/

/-- What a turn order must be like to be worked on. -/
structure Safe (o : TurnOrder) : Prop where
  /-- No name occurs twice. -/
  distinct : (o.entries.map Entry.name).Nodup
  /-- No name is empty. -/
  named : ∀ e ∈ o.entries, e.name ≠ ""
  /-- The turn is at an entry, or at the first place if there is none. -/
  placed : if o.size = 0 then o.index = 0 else o.index < o.size
  /-- All ranks are below the next one. -/
  rank_lt : ∀ e ∈ o.entries, e.rank < o.nextRank
  /-- The entry at the place of the turn has it, if there is any entry. -/
  current : if o.size = 0 then o.current? = none
    else ∃ hplace : o.index < o.display.length, o.current? = some o.display[o.index]
  /-- The turn is passed on to the entry that is displayed next, from the last to the first, and is
  refused only if there is none. -/
  advance : if o.size = 0 then o.advance = .error .emptyOrder
    else ∃ hplace : (o.index + 1) % o.size < o.display.length,
      o.advance =
        .ok (o.display[(o.index + 1) % o.size], { o with index := (o.index + 1) % o.size })
  /-- A new name is displayed behind all entries of its value and before those of a lower one, and
  the others stay as they were. -/
  newcomer : ∀ name value, trim name ≠ "" → o.contains (trim name) = false →
    ∃ o' above below, o.add name value = .ok (⟨trim name, value, o.nextRank⟩, o') ∧
      o.display = above ++ below ∧
      o'.display = above ++ ⟨trim name, value, o.nextRank⟩ :: below ∧
      (∀ e ∈ above, value ≤ e.value) ∧ ∀ e ∈ below, e.value < value

/-- **A storable order is safe to work on.** -/
theorem safe_of_storable {o : TurnOrder} (ho : o.Storable) : Safe o where
  distinct := by
    rw [TurnOrder.map_name_entries]
    exact o.standings.nodup_keys
  named := ho.named
  placed := by
    have hplaced := ho.placed
    split <;> omega
  rank_lt := ho.rank_lt
  current := by
    split
    · next hempty => exact TurnOrder.current?_of_size_eq_zero hempty
    · next hsome =>
      have hplaced := ho.placed
      have hplace : o.index < o.display.length := by
        rw [TurnOrder.length_display]
        omega
      exact ⟨hplace, List.getElem?_eq_getElem hplace⟩
  advance := by
    split
    · next hempty => exact TurnOrder.advance_of_size_eq_zero hempty
    · next hsome => exact TurnOrder.advance_of_pos (Nat.pos_of_ne_zero hsome)
  newcomer := by
    intro name value hname hnew
    have hnone : o.standings.get? (trim name) = none :=
      Option.isNone_iff_eq_none.1 (Option.isSome_eq_false_iff.1 hnew)
    obtain ⟨above, below, hdisplay, hdisplay', habove, hbelow⟩ :=
      TurnOrder.display_put_of_none hnone ho.rank_lt value
    refine ⟨(o.put (trim name) value).2, above, below, ?_, hdisplay, hdisplay', habove, hbelow⟩
    rw [TurnOrder.add_eq, if_neg hname, TurnOrder.put, hnone]

/-- **Whatever text was read, and whatever is done then, the order is safe to work on.** -/
theorem safe_stateAfter {text : String} {o : TurnOrder} (h : TurnOrder.read text = .ok o)
    (actions : List OrderAction) : Safe (stateAfter actions o) :=
  safe_of_storable (storable_stateAfter actions (TurnOrder.storable_of_read h))

/-- A text with its fields in another sequence and without a version.  The place of the turn is
beyond the end, the next rank is one that others have passed, and two entries have the same rank. -/
def scrambled : String :=
  "\x7b\"next_seq\":2,\"entries\":[\x7b\"insertion_seq\":5,\"value\":\"1\",\"name\":\"B\"\x7d," ++
    "\x7b\"name\":\"A\",\"value\":1,\"insertion_seq\":5\x7d],\"current_index\":7\x7d"

/-- The place of the turn and the next rank are mended when the text is read. -/
theorem read_scrambled :
    ∃ o, TurnOrder.read scrambled = .ok o ∧ o.entries = [⟨"B", 1, 5⟩, ⟨"A", 1, 5⟩] ∧
      o.index = 1 ∧ o.nextRank = 6 := by
  have hread : (TurnOrder.read scrambled).map (fun o => (o.entries, o.index, o.nextRank)) =
      .ok ([⟨"B", 1, 5⟩, ⟨"A", 1, 5⟩], 1, 6) := by decide +kernel
  obtain ⟨o, ho, hparts⟩ := Except.map_eq_ok hread
  obtain ⟨hentries, hnumbers⟩ := Prod.mk.inj hparts
  obtain ⟨hindex, hnext⟩ := Prod.mk.inj hnumbers
  exact ⟨o, ho, hentries, hindex, hnext⟩

/-- Two entries of the same rank are safe to work on. -/
theorem safe_stateAfter_scrambled :
    ∃ o, TurnOrder.read scrambled = .ok o ∧ o.entries = [⟨"B", 1, 5⟩, ⟨"A", 1, 5⟩] ∧
      o.index = 1 ∧ o.nextRank = 6 ∧ Safe (stateAfter [.remove "B", .reload, .advance] o) := by
  obtain ⟨o, ho, hentries, hindex, hnext⟩ := read_scrambled
  exact ⟨o, ho, hentries, hindex, hnext, safe_stateAfter ho _⟩

/-! ### Names as they are listed -/

/-- An entry that is listed answers to its name: by the name it can be removed, and given another
value, and all others stay as they are. -/
structure AnswersToName (o : TurnOrder) (e : Entry) : Prop where
  /-- Removing the name takes this entry out, and no other. -/
  remove : ∃ o', o.remove e.name = (true, o') ∧ o'.display = o.display.erase e
  /-- Adding the name gives this entry the value, and there is no new entry. -/
  add : ∀ value, ∃ o', o.add e.name value = .ok ({ e with value := value }, o') ∧
    o'.entries = o.entries.map (TurnOrder.revalue e.name value) ∧
    o'.index = o.index ∧ o'.nextRank = o.nextRank

/-- **An entry answers to its name if there are no blanks around it**, and only then. -/
theorem answersToName_iff {o : TurnOrder} {e : Entry} (he : e ∈ o.display) (hname : e.name ≠ "") :
    AnswersToName o e ↔ trim e.name = e.name := by
  constructor
  · intro h
    obtain ⟨o', hremove, hdisplay⟩ := h.remove
    by_contra htrim
    have hkept : e ∈ (o.remove e.name).2.display := by
      rw [TurnOrder.display_remove, List.mem_filter, decide_eq_true_eq]
      exact ⟨he, Ne.symm htrim⟩
    rw [hremove, hdisplay] at hkept
    exact o.nodup_display.not_mem_erase hkept
  · intro htrim
    have hstanding := TurnOrder.get?_standings_of_mem (TurnOrder.mem_display.1 he)
    refine ⟨?_, ?_⟩
    · obtain ⟨above, below, hsplit⟩ := List.append_of_mem he
      obtain ⟨o', hremove, hdisplay, -⟩ := TurnOrder.remove_of_display hsplit htrim.symm
      have hnotin : e ∉ above := fun hmem =>
        TurnOrder.name_ne_of_display hsplit e (List.mem_append_left below hmem) rfl
      refine ⟨o', hremove, ?_⟩
      rw [hdisplay, hsplit, List.erase_append_right _ hnotin, List.erase_cons_head]
    · intro value
      refine ⟨(o.put e.name value).2, ?_, TurnOrder.entries_put_of_some hstanding value,
        TurnOrder.index_put o _ _, ?_⟩
      · rw [TurnOrder.add_eq, htrim, if_neg hname, TurnOrder.put, hstanding]
      · rw [TurnOrder.put, hstanding]

/-- An action brings no name with blanks around it. -/
theorem OrderAction.trimmed_act (action : OrderAction) {o : TurnOrder} (ho : o.Storable)
    (h : ∀ e ∈ o.entries, trim e.name = e.name) :
    ∀ e ∈ (action.act o).2.entries, trim e.name = e.name := by
  intro e he
  rcases mem_entries_act ho he with ⟨name, -, hname⟩ | hold
  · rw [hname]
    exact trim_trim name
  · exact h e hold

/-- **No actions bring a name with blanks around it.** -/
theorem trimmed_stateAfter (actions : List OrderAction) {o : TurnOrder} (ho : o.Storable)
    (h : ∀ e ∈ o.entries, trim e.name = e.name) :
    ∀ e ∈ (stateAfter actions o).entries, trim e.name = e.name := by
  induction actions generalizing o with
  | nil => exact h
  | cons action actions ih => exact ih (action.storable_act ho) (action.trimmed_act ho h)

/-- **A listed entry answers to its name if there are no blanks around it**, and only then, whatever
text was read and whatever was done since.  If no name of the text had any, all listed entries
answer to their names. -/
theorem answersToName_stateAfter {o : TurnOrder}
    (hstart : o = .empty ∨ ∃ text, TurnOrder.read text = .ok o) (actions : List OrderAction)
    {e : Entry} (he : e ∈ (stateAfter actions o).display) :
    (AnswersToName (stateAfter actions o) e ↔ trim e.name = e.name) ∧
      ((∀ d ∈ o.entries, trim d.name = d.name) → AnswersToName (stateAfter actions o) e) := by
  have ho : o.Storable := by
    rcases hstart with rfl | ⟨text, hread⟩
    · exact TurnOrder.storable_empty
    · exact TurnOrder.storable_of_read hread
  have hname := (storable_stateAfter actions ho).named e (TurnOrder.mem_display.1 he)
  have hiff := answersToName_iff he hname
  refine ⟨hiff, fun htrimmed => hiff.2 ?_⟩
  exact trimmed_stateAfter actions ho htrimmed e (TurnOrder.mem_display.1 he)

/-- One of two entries is left after the other was removed, and answers to its name. -/
theorem answersToName_stateAfter_scrambled :
    ∃ o, TurnOrder.read scrambled = .ok o ∧
      ⟨"B", 1, 5⟩ ∈ (stateAfter [.remove "A"] o).display ∧
      AnswersToName (stateAfter [.remove "A"] o) ⟨"B", 1, 5⟩ := by
  obtain ⟨o, ho, hentries, -, -⟩ := read_scrambled
  have hleft : ⟨"B", 1, 5⟩ ∈ (stateAfter [.remove "A"] o).display := by
    show _ ∈ (o.remove "A").2.display
    rw [TurnOrder.display_remove, List.mem_filter, TurnOrder.mem_display, hentries]
    decide
  have htrimmed : ∀ d ∈ o.entries, trim d.name = d.name := by
    rw [hentries]
    decide
  exact ⟨o, ho, hleft, (answersToName_stateAfter (Or.inr ⟨scrambled, ho⟩) _ hleft).2 htrimmed⟩

/-- A text with a blank before a name. -/
def blankBeforeName : String :=
  "\x7b\"version\":1,\"entries\":[\x7b\"name\":\" A\",\"value\":1,\"insertion_seq\":0\x7d]," ++
    "\"current_index\":0,\"next_seq\":1\x7d"

/-- **A blank before a name hides its entry.**  The entry is listed, but its name is not found, and
when the name is added there is another entry, with another name. -/
theorem not_answersToName_blank :
    ∃ o, TurnOrder.read blankBeforeName = .ok o ∧ o.display = [⟨" A", 1, 0⟩] ∧
      o.remove " A" = (false, o) ∧
      (∃ o', o.add " A" 5 = .ok (⟨"A", 5, 1⟩, o') ∧ o'.size = 2) ∧
      ¬AnswersToName o ⟨" A", 1, 0⟩ := by
  have hread : (TurnOrder.read blankBeforeName).map (fun o => (o.entries, o.nextRank)) =
      .ok ([⟨" A", 1, 0⟩], 1) := by decide +kernel
  obtain ⟨o, ho, hparts⟩ := Except.map_eq_ok hread
  obtain ⟨hentries, hnext⟩ := Prod.mk.inj hparts
  have hdisplay : o.display = [⟨" A", 1, 0⟩] := by
    rw [TurnOrder.display_of_pairwise (hentries ▸ List.pairwise_singleton _ _), hentries]
  have htrim : trim " A" = "A" := by decide
  have hnew : o.contains (trim " A") = false := by
    rw [Bool.eq_false_iff, Ne, TurnOrder.contains_iff_mem_display, hdisplay, htrim]
    decide
  have hsafe : Safe o := safe_of_storable (TurnOrder.storable_of_read ho)
  obtain ⟨o', above, below, hadd, hold, hdisplay', -, -⟩ :=
    hsafe.newcomer " A" 5 (by decide) hnew
  rw [hnext, htrim] at hadd
  have hsize : o'.size = 2 := by
    have hlength := congrArg List.length (hdisplay.symm.trans hold)
    rw [← TurnOrder.length_display, hdisplay', List.length_append, List.length_cons]
    rw [List.length_append, List.length_singleton] at hlength
    omega
  have hlisted : ⟨" A", 1, 0⟩ ∈ o.display := hdisplay ▸ List.mem_singleton_self _
  refine ⟨o, ho, hdisplay, TurnOrder.remove_of_not_contains hnew, ⟨o', hadd, hsize⟩, ?_⟩
  rw [answersToName_iff hlisted (by decide)]
  decide

end Tabletop.Initiative
