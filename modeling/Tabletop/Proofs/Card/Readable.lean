import Tabletop.Attribute.Reader
import Tabletop.Proofs.Card.Table
import Tabletop.Proofs.Pool.Spellings

/-!
# Cards that stay readable

A directive may give an attribute a longer name than fits into a row.  A table takes such a name, as
rows are checked only when they are read; but from then on the attribute can neither be read nor
overwritten, and the attributes of the card can no longer be listed.

All other names that directives give fit, so a card that only holds these stays readable.

## Main definitions

* `IsDirectiveName` — a name that a directive gives to an attribute.
* `tableAfter` — the table after a run of calls.

## Main results

* `IsDirectiveName.isName` — directives give names of letters, and no empty ones.
* `never_read` — an attribute that does not fit into a row is never read.
* `readable_of_accepted` — **what a table takes can be read as long as the names are short enough.**
-/

namespace Tabletop

open Attribute Row

/-! ### The names that directives give -/

namespace Attribute

theorem isName_iff {cs : List Char} :
    isName cs = true ↔ cs ≠ [] ∧ ∀ c ∈ cs, isNameChar c = true := by
  rw [isName, Bool.and_eq_true, Bool.not_eq_true', List.isEmpty_eq_false_iff, List.all_eq_true]

/-- What an amount is read behind is a name. -/
theorem pairAfter_named {name cs rest : List Char} {p : Pair}
    (hname : ∀ c ∈ name, isNameChar c = true) (h : pairAfter name cs = some (p, rest)) :
    isName p.name = true := by
  induction cs generalizing name with
  | nil =>
    unfold pairAfter at h
    simp [amount?] at h
  | cons c cs ih =>
    unfold pairAfter at h
    split at h
    · next hamount =>
      simp only [Option.some.injEq, Prod.mk.injEq] at h
      rw [← h.1]
      split at hamount
      · cases hamount
      · next hne => exact isName_iff.2 ⟨fun hnil => hne (List.isEmpty_iff.2 hnil), hname⟩
    · simp only at h
      split at h
      · next hc =>
        refine ih ?_ h
        rw [List.forall_mem_append, List.forall_mem_singleton]
        exact ⟨hname, hc⟩
      · cases h

theorem pairs?_named {cs : List Char} {ps : List Pair} (h : pairs? cs = some ps) :
    ∀ p ∈ ps, isName p.name = true := by
  fun_induction pairs? cs generalizing ps with
  | case1 =>
    cases h
    exact List.forall_mem_nil _
  | case2 c rest p rest' hpair ih =>
    obtain ⟨more, hmore, rfl⟩ := Option.map_eq_some_iff.1 h
    exact List.forall_mem_cons.2 ⟨pairAfter_named (List.forall_mem_nil _) hpair, ih hmore⟩
  | case3 => cases h

theorem generated?_named {word name digits : List Char}
    (h : generated? word = some (name, digits)) : isName name = true := by
  simp only [generated?] at h
  split at h
  · cases h
  · next hname =>
    split at h
    · obtain ⟨numeral, _, hpair⟩ := Option.map_eq_some_iff.1 h
      rw [← (Prod.mk.inj hpair).1]
      refine isName_iff.2 ⟨fun hnil => hname (List.isEmpty_iff.2 hnil), ?_⟩
      intro c hc
      rw [isNameChar, List.mem_takeWhile_imp hc, Bool.or_true]
    · cases h

/-- The attributes of the operations in a segment are spelled by names. -/
theorem readWords_named {aliases : AliasTable} {segment : List (List Char)} {op : Operation}
    (h : op ∈ readWords aliases segment) :
    ∃ name, isName name = true ∧ op.name = aliases.normalize (String.ofList name) := by
  fun_induction readWords aliases segment with
  | case1 => cases h
  | case2 word rest name digits hgenerated ih =>
    rcases List.mem_cons.1 h with rfl | hrest
    · exact ⟨name, generated?_named hgenerated, rfl⟩
    · exact ih hrest
  | case3 word rest hgenerated hcalculation ih => exact ih h
  | case4 => cases h
  | case5 word hgenerated hcalculation hname next rest n hn ih =>
    rcases List.mem_cons.1 h with rfl | hrest
    · exact ⟨word, hname, rfl⟩
    · exact ih hrest
  | case6 word hgenerated hcalculation hname next rest hn ih => exact ih h
  | case7 word rest hgenerated hcalculation hname ih =>
    rcases List.mem_append.1 h with hpairs | hrest
    · obtain ⟨p, hp, rfl⟩ := List.mem_map.1 hpairs
      rcases hread : pairs? word with _ | ps
      · rw [hread] at hp
        cases hp
      · rw [hread] at hp
        exact ⟨p.name, pairs?_named hread p hp, rfl⟩
    · exact ih hrest

end Attribute

/-- The canonical form of a name is a name. -/
theorem AliasTable.isName_normalize_builtIn {name : String} (h : isName name.toList = true) :
    isName (AliasTable.builtIn.normalize name).toList = true := by
  rw [AliasTable.normalize]
  rcases hknown : AliasTable.builtIn.canonical.get? (AliasTable.key name) with _ | canonical
  · exact h
  · obtain ⟨e, he, s, -, hentry⟩ :=
      AliasTable.mem_build ((InsertionMap.get?_eq_some_iff _).1 hknown)
    have hkey := Pool.isKey_of_mem_builtInNames he List.mem_cons_self
    rw [Option.getD_some, (Prod.mk.inj hentry).2]
    exact isName_iff.2 ⟨hkey.ne_nil, hkey.letters⟩

/-- A directive gives the name to an attribute. -/
def IsDirectiveName (name : String) : Prop :=
  ∃ text, ∃ op ∈ (readDirective .builtIn text).operations, op.name = name

/-- **Directives give names of letters.** -/
theorem IsDirectiveName.isName {name : String} (h : IsDirectiveName name) :
    isName name.toList = true := by
  obtain ⟨text, op, hop, rfl⟩ := h
  obtain ⟨segment, _, hsegment⟩ := List.mem_flatMap.1 hop
  obtain ⟨spelling, hspelling, hname⟩ := readWords_named hsegment
  rw [hname]
  apply AliasTable.isName_normalize_builtIn
  rwa [String.toList_ofList]

/-- Directives give no empty names. -/
theorem IsDirectiveName.ne_empty {name : String} (h : IsDirectiveName name) : name ≠ "" := by
  rintro rfl
  exact (isName_iff.1 h.isName).1 rfl

namespace Row

/-! ### Runs of calls -/

/-- The table after a run of calls, if it had no rows before. -/
def tableAfter (log : List Query) (calls : List CardCall) : Table :=
  (runCalls CardCall.onTable calls ⟨[], log, true⟩).2

/-- The store that the table after a run of calls holds. -/
def storeAfter (calls : List CardCall) : CardStore := (runCalls CardCall.checked calls .empty).2

theorem mirrors_tableAfter (log : List Query) (calls : List CardCall) :
    ∃ rows, Mirrors rows (tableAfter log calls) (storeAfter calls) :=
  ((mirrors_empty log).runCalls calls).2

theorem runCalls_append_snd {α σ : Type} (act : CardCall → σ → α × σ) (before after : List CardCall)
    (s : σ) :
    (runCalls act (before ++ after) s).2 = (runCalls act after (runCalls act before s).2).2 := by
  induction before generalizing s with
  | nil => rfl
  | cons call before ih => exact ih (act call s).2

theorem Readable.runCalls {store : CardStore} {card : String} (h : Readable store card)
    {calls : List CardCall}
    (hfits : ∀ name value cap, .set card name value cap ∈ calls → rowFaults card name = []) :
    Readable (runCalls CardCall.checked calls store).2 card := by
  induction calls generalizing store with
  | nil => exact h
  | cons call calls ih =>
    apply ih
    · apply h.checked
      rintro name value cap rfl
      exact hfits name value cap List.mem_cons_self
    · intro name value cap hmem
      exact hfits name value cap (List.mem_cons_of_mem call hmem)

/-- An attribute that is there is still there after a call. -/
theorem CardCall.get?_checked_ne_none {store : CardStore} {card name : String}
    (h : store.get? card name ≠ none) (call : CardCall) :
    (call.checked store).2.get? card name ≠ none := by
  have hact : (call.onStore store).2.get? card name ≠ none := by
    cases call with
    | get card' name' => exact h
    | all card' => exact h
    | set card' name' value cap =>
      simp only [CardCall.onStore, CardStore.set]
      split
      · rw [CardStore.get?_write]
        split
        · exact Option.some_ne_none value
        · exact h
      · exact h
  rw [CardCall.checked]
  split
  · exact hact
  · exact h

theorem runCalls_get?_ne_none {store : CardStore} {card name : String}
    (h : store.get? card name ≠ none) (calls : List CardCall) :
    (runCalls CardCall.checked calls store).2.get? card name ≠ none := by
  induction calls generalizing store with
  | nil => exact h
  | cons call calls ih => exact ih (call.get?_checked_ne_none h)

/-- A write that the table accepts is a write to the store. -/
theorem storeAfter_of_accepted {log : List Query} {before : List CardCall} {card name : String}
    {value cap : Int}
    (haccepted : (CardTable.set card name value cap (tableAfter log before)).1 = .ok true) :
    storeAfter (before ++ [.set card name value cap]) =
      (storeAfter before).write card name value := by
  obtain ⟨rows, h⟩ := mirrors_tableAfter log before
  rw [(h.set_apply card name value cap).1] at haccepted
  obtain ⟨hfaults, hset⟩ := verdict_eq_ok haccepted
  rw [storeAfter, runCalls_append_snd, runCalls, runCalls]
  show (CardCall.checked _ (storeAfter before)).2 = _
  rw [CardCall.checked, if_pos hfaults, CardCall.onStore]
  unfold CardStore.set at hset ⊢
  split at hset
  · next hacc => rw [if_pos hacc]
  · cases hset

/-! ### Names that do not fit -/

/-- **An attribute that does not fit into a row is never read.**  Once the table has taken it, each
attempt to read it or to overwrite it gives its faults, and the attributes of its card are not
listed. -/
theorem never_read {log : List Query} {before : List CardCall} {card name : String}
    {value cap : Int}
    (haccepted : (CardTable.set card name value cap (tableAfter log before)).1 = .ok true)
    (hfaults : rowFaults card name ≠ []) (after : List CardCall) :
    let t := tableAfter log (before ++ .set card name value cap :: after)
    (CardTable.get? card name t).1 = .error (rowFaults card name) ∧
      (∀ value' cap', (CardTable.set card name value' cap' t).1 = .error (rowFaults card name)) ∧
      ∃ faults, (CardTable.all card t).1 = .error faults := by
  intro t
  obtain ⟨rows, h⟩ := mirrors_tableAfter log (before ++ .set card name value cap :: after)
  have hstill :
      (storeAfter (before ++ .set card name value cap :: after)).get? card name ≠ none := by
    rw [List.append_cons, storeAfter, runCalls_append_snd]
    apply runCalls_get?_ne_none
    show (storeAfter (before ++ [.set card name value cap])).get? card name ≠ none
    rw [storeAfter_of_accepted haccepted, CardStore.get?_write, if_pos ⟨rfl, rfl⟩]
    exact Option.some_ne_none value
  refine ⟨?_, ?_, ?_⟩
  · obtain ⟨log', hget⟩ := h.get?_apply card name
    rw [hget]
    split
    · next hnone => exact absurd hnone hstill
    · exact verdict_of_ne_nil hfaults _
  · intro value' cap'
    rw [(h.set_apply card name value' cap').1, CardCall.faults, if_neg hstill]
    exact verdict_of_ne_nil hfaults _
  · obtain ⟨log', hall⟩ := h.all_apply card
    rw [hall]
    refine ⟨_, verdict_of_ne_nil ?_ _⟩
    intro hnil
    exact hfaults (firstFaults_eq_nil_iff.1 hnil name (CardStore.mem_keys_iff.2 hstill))

/-! ### Names that fit -/

/-- **What a table takes can be read.**  If the names that directives give are short enough for a
row, then an attribute that was accepted is read back and listed, and no later call on its card is
refused, whatever is done with other cards. -/
theorem readable_of_accepted (log : List Query) {before after : List CardCall}
    {card name : String} {value cap : Int} (hcard : card ≠ "")
    (hnames : ∀ name' value' cap',
      .set card name' value' cap' ∈ before ++ .set card name value cap :: after →
        IsDirectiveName name' ∧ name'.length ≤ maxNameLength)
    (haccepted : (CardTable.set card name value cap (tableAfter log before)).1 = .ok true) :
    (CardTable.get? card name (tableAfter log (before ++ [.set card name value cap]))).1 =
        .ok (some value) ∧
      (∃ attributes,
        (CardTable.all card (tableAfter log (before ++ [.set card name value cap]))).1 =
            .ok attributes ∧ attributes.get? name = some value) ∧
      ∀ call : CardCall, call.card = card →
        ∃ reply,
          (call.onTable (tableAfter log (before ++ .set card name value cap :: after))).1 =
            .ok reply := by
  have hfits : ∀ calls, calls <+: before ++ .set card name value cap :: after →
      Readable (storeAfter calls) card := by
    intro calls hcalls
    apply (readable_empty card).runCalls
    intro name' value' cap' hmem
    obtain ⟨hname, hlength⟩ := hnames name' value' cap' (hcalls.subset hmem)
    exact rowFaults_eq_nil_iff.2 ⟨hcard, hname.ne_empty, hlength⟩
  have hthere :
      (storeAfter (before ++ [.set card name value cap])).get? card name = some value := by
    rw [storeAfter_of_accepted haccepted, CardStore.get?_write, if_pos ⟨rfl, rfl⟩]
  have hread : Readable (storeAfter (before ++ [.set card name value cap])) card :=
    hfits _ (by simp)
  obtain ⟨rows, h⟩ := mirrors_tableAfter log (before ++ [.set card name value cap])
  refine ⟨?_, ?_, ?_⟩
  · obtain ⟨log', hget⟩ := h.get?_apply card name
    have hname :
        name ∈ ((storeAfter (before ++ [.set card name value cap])).attributes card).keys := by
      rw [CardStore.mem_keys_iff, hthere]
      exact Option.some_ne_none value
    simp only [hget, hthere, hread name hname, verdict_nil]
  · obtain ⟨log', hall⟩ := h.all_apply card
    rw [hall, firstFaults_eq_nil_iff.2 hread]
    exact ⟨_, rfl, hthere⟩
  · rintro call rfl
    obtain ⟨rows', h'⟩ := mirrors_tableAfter log (before ++ .set call.card name value cap :: after)
    rw [(h'.onTable call).1, (hfits _ List.prefix_rfl).checked_eq]
    exact ⟨_, rfl⟩

/-- Hit points that are set twice on a card of one attribute. -/
theorem readable_of_accepted_hit_points :
    (CardTable.set "a" "生命" 12 1 (tableAfter [] [.set "a" "生命" 7 1])).1 = .ok true ∧
      (CardTable.get? "a" "生命"
        (tableAfter [] ([.set "a" "生命" 7 1] ++ [.set "a" "生命" 12 1]))).1 = .ok (some 12) := by
  have hhp : IsDirectiveName "生命" := by
    refine ⟨"hp 12", ⟨"生命", .set, .literal 12⟩, ?_, rfl⟩
    rw [Pool.builtIn_eq]
    decide +kernel
  have hnames : ∀ name' value' cap',
      .set "a" name' value' cap' ∈ [.set "a" "生命" 7 1] ++ .set "a" "生命" 12 1 :: [CardCall.all "a"] →
        IsDirectiveName name' ∧ name'.length ≤ maxNameLength := by
    intro name' value' cap' hmem
    have hname : name' = "生命" := by
      simp only [List.cons_append, List.nil_append, List.mem_cons, CardCall.set.injEq] at hmem
      rcases hmem with h | h | h | h
      · exact h.2.1
      · exact h.2.1
      · cases h
      · cases h
    rw [hname]
    exact ⟨hhp, by decide⟩
  exact ⟨rfl, (readable_of_accepted [] (by decide) hnames rfl).1⟩

/-- **A directive may give a name that is never read.**  A name of thirty-three letters is taken,
and then neither the attribute nor the card can be read. -/
theorem long_name_never_read :
    ∃ name, IsDirectiveName name ∧
      (CardTable.set "c" name 5 100 (tableAfter [] [])).1 = .ok true ∧
      (CardTable.get? "c" name (tableAfter [] [.set "c" name 5 100])).1 =
        .error [⟨"name", .textTooLong⟩] ∧
      (CardTable.all "c" (tableAfter [] [.set "c" name 5 100])).1 =
        .error [⟨"name", .textTooLong⟩] := by
  have hlong : IsDirectiveName (String.ofList (List.replicate 33 'a')) := by
    refine ⟨String.ofList (List.replicate 33 'a') ++ " 5",
      ⟨String.ofList (List.replicate 33 'a'), .set, .literal 5⟩, ?_, rfl⟩
    rw [Pool.builtIn_eq]
    decide +kernel
  exact ⟨_, hlong, rfl, rfl, rfl⟩

end Row

end Tabletop
