import Tabletop.Proofs.Initiative.Rounds

/-!
# Who holds the turn after a removal

The turn is kept as a place of the display, so it has to be mended when a name is removed: it moves
up by one if the removed entry was displayed before its holder, and goes back to the top if it would
fall off the end.  Seen from outside this says that the turn stays with its holder; and if the
holder itself is removed, the one displayed behind it has the turn, or the first one if it was the
last.

Entries of others may have the same value and the same rank, and then they are displayed as their
names came.  The removed entry is found by its name, which no other has, so it is the right one.

## Main results

* `getElem?_indexAfter` — the element at the mended place of a list without one of its elements.
* `holder_after_remove` — **removing a name keeps the turn, or passes it on.**
-/

namespace Tabletop.Initiative

namespace TurnOrder

/-- **The mended place shows the same element as before**; if that one was taken out, the next
one, or the first one behind the last. -/
theorem getElem?_indexAfter {α : Type} {l : List α} {index removed : Nat}
    (hindex : index < l.length) (hremoved : removed < l.length) :
    (l.eraseIdx removed)[indexAfter index removed (l.eraseIdx removed).length]? =
      if removed ≠ index then l[index]?
      else if 1 < l.length then l[(index + 1) % l.length]?
      else none := by
  rw [List.length_eraseIdx_of_lt hremoved, List.getElem?_eraseIdx]
  rcases Nat.lt_trichotomy removed index with hlt | rfl | hgt
  · have hplace : indexAfter index removed (l.length - 1) = index - 1 := by
      rw [indexAfter, if_neg (by omega), if_pos hlt]
    have hback : index - 1 + 1 = index := by omega
    rw [hplace, if_neg (by omega), hback, if_pos (by omega)]
  · rw [if_neg (not_not_intro rfl)]
    by_cases hsingle : 1 < l.length
    · rw [if_pos hsingle]
      by_cases hlast : l.length - 1 ≤ removed
      · -- Behind the last one comes the first.
        have hplace : indexAfter removed removed (l.length - 1) = 0 := by
          rw [indexAfter, if_neg (by omega), if_neg (Nat.lt_irrefl removed), if_pos hlast]
        have hlength : removed + 1 = l.length := by omega
        rw [hplace, if_pos (by omega), hlength, Nat.mod_self]
      · have hplace : indexAfter removed removed (l.length - 1) = removed := by
          rw [indexAfter, if_neg (by omega), if_neg (Nat.lt_irrefl removed), if_neg hlast]
        rw [hplace, if_neg (Nat.lt_irrefl removed), Nat.mod_eq_of_lt (by omega)]
    · have hplace : indexAfter removed removed (l.length - 1) = 0 := by
        rw [indexAfter, if_pos (by omega)]
      rw [hplace, if_neg hsingle, if_neg (by omega), List.getElem?_eq_none (by omega)]
  · have hplace : indexAfter index removed (l.length - 1) = index := by
      rw [indexAfter, if_neg (by omega), if_neg (by omega), if_neg (by omega)]
    rw [hplace, if_pos hgt, if_pos (by omega)]

end TurnOrder

/-- **Removing a name keeps the turn, or passes it on.**  Let the turn be at an entry.  A name that,
without the blanks around it, is not displayed is not found, and nothing changes.  If it is the name
of the entry at a place, that entry is taken out of the display and the next rank stays; the turn
stays with its holder, or comes to the entry behind it if the holder was taken out, from the last to
the first; and when no entry is left no one has the turn. -/
theorem holder_after_remove {o : TurnOrder} (hplaced : o.index < o.size) (name : String) :
    ((∀ e ∈ o.display, e.name ≠ Text.trim name) → o.remove name = (false, o)) ∧
      ∀ (r : Nat) (e : Entry), o.display[r]? = some e → e.name = Text.trim name →
        ∃ o', o.remove name = (true, o') ∧ o'.display = o.display.eraseIdx r ∧
          o'.nextRank = o.nextRank ∧
          (r ≠ o.index → o'.current? = o.display[o.index]?) ∧
          (r = o.index → 1 < o.size → o'.current? = o.display[(o.index + 1) % o.size]?) ∧
          (o.size = 1 → o'.current? = none ∧ o'.index = 0) := by
  constructor
  · intro habsent
    rcases hcontains : o.contains (Text.trim name) with _ | _
    · exact TurnOrder.remove_of_not_contains hcontains
    · obtain ⟨e, he, hname⟩ := TurnOrder.contains_iff_mem_display.1 hcontains
      exact absurd hname (habsent e he)
  · intro r e hr hname
    obtain ⟨hlt, rfl⟩ := List.getElem?_eq_some_iff.1 hr
    have hsplit : o.display = o.display.take r ++ o.display[r] :: o.display.drop (r + 1) := by
      rw [← List.drop_eq_getElem_cons hlt, List.take_append_drop]
    obtain ⟨o', hremove, hdisplay, hnext, hindex⟩ := TurnOrder.remove_of_display hsplit hname
    rw [← List.eraseIdx_eq_take_drop_succ] at hdisplay hindex
    rw [List.length_take_of_le (Nat.le_of_lt hlt)] at hindex
    rw [← TurnOrder.length_display] at hplaced ⊢
    have hholder := TurnOrder.getElem?_indexAfter hplaced hlt
    rw [← hindex, ← hdisplay] at hholder
    refine ⟨o', hremove, hdisplay, hnext, ?_, ?_, ?_⟩
    · intro hother
      rw [if_pos hother] at hholder
      exact hholder
    · intro hself hothers
      rw [if_neg (not_not_intro hself), if_pos hothers] at hholder
      exact hholder
    · intro hsingle
      rw [if_neg (by omega), if_neg (by omega)] at hholder
      refine ⟨hholder, ?_⟩
      rw [hindex, List.length_eraseIdx_of_lt hlt, hsingle]
      rfl

/-- Two entries with the same value and the same rank, the second of which has the turn. -/
def twins : TurnOrder := ⟨.ofList [("B", ⟨1, 5⟩), ("A", ⟨1, 5⟩)], 1, 6⟩

/-- The second of two has the turn and is removed, so the turn goes back to the first. -/
theorem holder_after_remove_last :
    twins.index < twins.size ∧
      ∃ o', twins.remove " A" = (true, o') ∧ o'.display = [⟨"B", 1, 5⟩] ∧
        o'.current? = some ⟨"B", 1, 5⟩ := by
  have hdisplay : twins.display = [⟨"B", 1, 5⟩, ⟨"A", 1, 5⟩] :=
    TurnOrder.display_of_pairwise (by decide)
  have hplaced : twins.index < twins.size := by decide
  obtain ⟨o', hremove, hleft, -, -, hholder, -⟩ :=
    (holder_after_remove hplaced " A").2 1 ⟨"A", 1, 5⟩ (by rw [hdisplay]; rfl) (by decide)
  rw [hdisplay] at hleft hholder
  exact ⟨hplaced, o', hremove, hleft, hholder rfl (by decide)⟩

end Tabletop.Initiative
