import Tabletop.Dice.Parser

/-!
# The parts of a tree

Every expression, term and factor that is read has a tree of its own, and all these trees are parts
of the whole one.  Reading puts nothing into a tree but what the tokens say: a number is one of the
tokens, and a fault is one of reading tokens as a tree.

## Main definitions

* `Tree.parts` — the tree and all trees in it.
* `Fault.isLexical` — the faults of reading a text as tokens.
* `Tree.ComesFrom` — what stands at the top of a tree comes from the tokens.

## Main results

* `comesFrom_of_mem_parts_parse` — **all that stands in the tree of a list of tokens comes from the
  tokens.**
-/

namespace Tabletop.Dice

/-! ### Parts -/

/-- The tree and all trees in it, the outer before the inner and the left before the right. -/
def Tree.parts : Tree → List Tree
  | number ds => [number ds]
  | dice count faces => [dice count faces]
  | signed s t => signed s t :: t.parts
  | group t => group t :: t.parts
  | sum l s r => sum l s r :: (l.parts ++ r.parts)
  | product l s r => product l s r :: (l.parts ++ r.parts)
  | fault f => [fault f]
  | stopped t f => stopped t f :: t.parts

/-- A tree is a part of itself. -/
theorem Tree.mem_parts_self (t : Tree) : t ∈ t.parts := by
  cases t <;> exact List.mem_cons_self

/-- The parts of a part are parts. -/
theorem Tree.mem_parts_trans {s t u : Tree} (hs : s ∈ t.parts) (ht : t ∈ u.parts) :
    s ∈ u.parts := by
  induction u with
  | number | dice | fault =>
    obtain rfl := List.mem_singleton.1 ht
    exact hs
  | signed sign u ih | group u ih | stopped u f ih =>
    rcases List.mem_cons.1 ht with rfl | ht
    · exact hs
    · exact List.mem_cons_of_mem _ (ih ht)
  | sum l sign r ihl ihr | product l scale r ihl ihr =>
    rcases List.mem_cons.1 ht with rfl | ht
    · exact hs
    · refine List.mem_cons_of_mem _ (List.mem_append.2 ?_)
      exact (List.mem_append.1 ht).imp ihl ihr

/-! ### Where they come from -/

/-- Whether a fault is one of reading tokens. -/
def Fault.isLexical : Fault → Bool
  | unexpectedCharacter _ _ => true
  | longNumeral => true
  | empty => true
  | _ => false

section Reading

variable (given : List Token)

/-- What stands at the top of a tree comes from the given tokens: a number is one of them, and a
fault is not one of reading a text as tokens. -/
def Tree.ComesFrom : Tree → Prop
  | number ds => .number ds ∈ given
  | fault f => f.isLexical = false
  | stopped _ f => f.isLexical = false
  | _ => True

/-- All that stands in a tree comes from the given tokens. -/
def Tree.IsMadeOf (t : Tree) : Prop := ∀ u ∈ t.parts, u.ComesFrom given

/-- The parts of the trees that a frame holds. -/
def Frame.parts : Frame → List Tree
  | sum l _ => l.parts
  | product l _ => l.parts
  | _ => []

/-- All that stands in the frames comes from the given tokens. -/
def AreMadeOf (frames : List Frame) : Prop := ∀ f ∈ frames, ∀ u ∈ f.parts, u.ComesFrom given

variable {given}

theorem isMadeOf_frameFill_iff {f : Frame} {t : Tree} :
    (f.fill t).IsMadeOf given ↔ (∀ u ∈ f.parts, u.ComesFrom given) ∧ t.IsMadeOf given := by
  cases f with
  | sum l s | product l s =>
    simp [Tree.IsMadeOf, Frame.fill, Frame.parts, Tree.parts, Tree.ComesFrom, or_imp, forall_and]
  | signed s | group =>
    simp [Tree.IsMadeOf, Frame.fill, Frame.parts, Tree.parts, Tree.ComesFrom]

theorem isMadeOf_fill_iff {frames : List Frame} {t : Tree} :
    (fill frames t).IsMadeOf given ↔ AreMadeOf given frames ∧ t.IsMadeOf given := by
  induction frames generalizing t with
  | nil => exact (and_iff_right (List.forall_mem_nil _)).symm
  | cons f frames ih =>
    rw [fill, ih, isMadeOf_frameFill_iff, AreMadeOf, AreMadeOf, List.forall_mem_cons]
    exact ⟨fun h => ⟨⟨h.2.1, h.1⟩, h.2.2⟩, fun h => ⟨h.1.2, h.1.1, h.2⟩⟩

theorem isMadeOf_number {ds : List Char} (h : .number ds ∈ given) :
    (Tree.number ds).IsMadeOf given := fun _ hu => List.mem_singleton.1 hu ▸ h

theorem isMadeOf_dice (count faces : Option Nat) : (Tree.dice count faces).IsMadeOf given :=
  fun _ hu => List.mem_singleton.1 hu ▸ trivial

theorem isMadeOf_group {t : Tree} (h : t.IsMadeOf given) : (Tree.group t).IsMadeOf given :=
  List.forall_mem_cons.2 ⟨trivial, h⟩

section Frames

variable {frames : List Frame} {t : Tree} (h : AreMadeOf given frames)
include h

theorem isMadeOf_fill_fault {f : Fault} (hf : f.isLexical = false) :
    (fill frames (.fault f)).IsMadeOf given :=
  isMadeOf_fill_iff.2 ⟨h, fun _ hu => List.mem_singleton.1 hu ▸ hf⟩

theorem isMadeOf_fill_stopped (ht : t.IsMadeOf given) {f : Fault} (hf : f.isLexical = false) :
    (fill frames (.stopped t f)).IsMadeOf given :=
  isMadeOf_fill_iff.2 ⟨h, List.forall_mem_cons.2 ⟨hf, ht⟩⟩

theorem areMadeOf_closeFactor (ht : t.IsMadeOf given) :
    AreMadeOf given (closeFactor t frames).2 ∧ (closeFactor t frames).1.IsMadeOf given := by
  rw [← isMadeOf_fill_iff, fill_closeFactor]
  exact isMadeOf_fill_iff.2 ⟨h, ht⟩

theorem areMadeOf_closeTerm (ht : t.IsMadeOf given) :
    AreMadeOf given (closeTerm t frames).2 ∧ (closeTerm t frames).1.IsMadeOf given := by
  rw [← isMadeOf_fill_iff, fill_closeTerm]
  exact isMadeOf_fill_iff.2 ⟨h, ht⟩

theorem isMadeOf_openLevel {f : Frame} (hf : f.parts = []) {read : List Frame → Tree}
    (hread : ∀ frames, AreMadeOf given frames → (read frames).IsMadeOf given) :
    (openLevel frames f read).IsMadeOf given := by
  unfold openLevel
  split
  · exact hread _ (List.forall_mem_cons.2 ⟨hf ▸ List.forall_mem_nil _, h⟩)
  · exact isMadeOf_fill_fault h rfl

end Frames

/-- **Reading keeps to what the tokens say**, where an operand has to come and behind one. -/
theorem isMadeOf_of_read {ts : List Token} (hts : ∀ token ∈ ts, token ∈ given) :
    (∀ frames, AreMadeOf given frames → (readOperand frames ts).IsMadeOf given) ∧
      ∀ t frames, AreMadeOf given frames → t.IsMadeOf given →
        (readOperator t frames ts).IsMadeOf given := by
  induction ts with
  | nil =>
    refine ⟨?_, ?_⟩
    · intro frames h
      rw [readOperand]
      exact isMadeOf_fill_fault h rfl
    · intro t frames h ht
      obtain ⟨hframes, hterm⟩ := areMadeOf_closeTerm h ht
      rw [readOperator]
      split
      · exact hterm
      · exact isMadeOf_fill_stopped hframes hterm rfl
  | cons token ts ih =>
    obtain ⟨htoken, hrest⟩ := List.forall_mem_cons.1 hts
    obtain ⟨ihOperand, ihOperator⟩ := ih hrest
    refine ⟨?_, ?_⟩
    · intro frames h
      cases token with
      | number ds =>
        obtain ⟨hframes, hfactor⟩ := areMadeOf_closeFactor h (isMadeOf_number htoken)
        rw [readOperand]
        exact ihOperator _ _ hframes hfactor
      | dice count letter faces =>
        obtain ⟨hframes, hfactor⟩ :=
          areMadeOf_closeFactor h (isMadeOf_dice (numeral? count) (numeral? faces))
        rw [readOperand]
        exact ihOperator _ _ hframes hfactor
      | sign s =>
        rw [readOperand]
        exact isMadeOf_openLevel h rfl ihOperand
      | opening =>
        rw [readOperand]
        exact isMadeOf_openLevel h rfl ihOperand
      | scale s =>
        rw [readOperand]
        exact isMadeOf_fill_fault h rfl
      | closing =>
        rw [readOperand]
        exact isMadeOf_fill_fault h rfl
    · intro t frames h ht
      obtain ⟨hframes, hterm⟩ := areMadeOf_closeTerm h ht
      cases token with
      | scale s =>
        rw [readOperator]
        exact ihOperand _ (List.forall_mem_cons.2 ⟨ht, h⟩)
      | sign s =>
        rw [readOperator]
        exact ihOperand _ (List.forall_mem_cons.2 ⟨hterm, hframes⟩)
      | closing =>
        rw [readOperator]
        split
        · next frames' hgroup =>
          rw [hgroup] at hframes
          obtain ⟨hframes', hfactor⟩ :=
            areMadeOf_closeFactor (List.forall_mem_cons.1 hframes).2 (isMadeOf_group hterm)
          exact ihOperator _ _ hframes' hfactor
        · exact isMadeOf_fill_stopped hframes hterm rfl
      | number | dice | opening =>
        rw [readOperator]
        · unfold stopAfter
          split
          · exact isMadeOf_fill_stopped hframes hterm rfl
          · exact isMadeOf_fill_stopped hframes hterm rfl
        all_goals intros; contradiction

end Reading

/-- **All that stands in the tree of a list of tokens comes from the tokens.** -/
theorem comesFrom_of_mem_parts_parse {ts : List Token} {u : Tree} (hu : u ∈ (parse ts).parts) :
    u.ComesFrom ts :=
  (isMadeOf_of_read fun _ htoken => htoken).1 [] (List.forall_mem_nil _) u hu

end Tabletop.Dice
