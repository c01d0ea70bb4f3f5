import Mathlib.Data.List.Chain
import Tabletop.Proofs.Attribute.Instruction

/-!
# Directives of written instructions

Instructions may be written directly behind each other, or with blanks and bars between them.
Either way a directive has one operation for each of them.  A run of instructions without a gap is
one word, and such a word is read apart from the words around it: it holds no mark that would make
it a calculation, and it is no name because it has an operator.  No text of instructions names
a card, because behind a dash there is always a term.

## Main definitions

* `Gap`, `written` — instructions with gaps between them.
* `Undashed` — no two dashes stand side by side.

## Main results

* `readWords_cons` — a word of pairs is read apart from the words behind it.
* `readSegments_written` — the operations of a text of instructions.
* `readDirective_written` — **instructions are read as they were written, whatever the gaps.**
-/

namespace Tabletop.Attribute

open Text

/-! ### Words of pairs -/

/-- A character of a word that shows no calculation. -/
def IsWordChar (c : Char) : Prop := isBlank c = false ∧ c ∉ ['=', '/', '*', '|']

instance (c : Char) : Decidable (IsWordChar c) := inferInstanceAs (Decidable (_ ∧ _))

theorem isWordChar_of_isNameChar {c : Char} (h : isNameChar c = true) : IsWordChar c :=
  ⟨isBlank_eq_false_of_isNameChar h, fun hc =>
    not_mem_marks_of_isNameChar h (List.mem_append_right ['+', '-', ':', '：'] hc)⟩

theorem isWordChar_of_isDigit {c : Char} (h : isDigit c = true) : IsWordChar c :=
  ⟨isBlank_eq_false_of_isDigit h, fun hc =>
    not_mem_marks_of_isDigit h (List.mem_append_right ['+', '-', ':', '：'] hc)⟩

theorem isWordChar_of_isDiceLetter {c : Char} (h : Dice.isDiceLetter c = true) :
    IsWordChar c := by
  rcases Dice.isDiceLetter_iff.1 h with rfl | rfl
  · decide
  · decide

theorem isWordChar_operator (o : Operator) : IsWordChar o.symbol := by
  cases o with
  | plus | minus | colon | wideColon => decide

theorem isWordChar_symbol (s : Dice.Sign) : IsWordChar s.symbol := by
  cases s with
  | plus | minus => decide

theorem generated?_eq_none {w : List Char} (h : ∀ c ∈ w, IsWordChar c) : generated? w = none := by
  unfold generated?
  simp only
  split
  · rfl
  · split
    · next rest heq =>
      have hmem : '=' ∈ (w.dropWhile isIdeograph).dropWhile isCapital :=
        heq ▸ List.mem_cons_self
      have hw := ((List.dropWhile_sublist _).trans (List.dropWhile_sublist _)).subset hmem
      exact absurd (h '=' hw) (by decide)
    · rfl

theorem isCalculation_eq_false {w : List Char} (h : ∀ c ∈ w, IsWordChar c) :
    isCalculation w = false := by
  rw [isCalculation, List.any_eq_false]
  intro c hc
  have hmarks := (h c hc).2
  simp only [List.mem_cons, not_or] at hmarks
  simp only [Bool.or_eq_true, beq_iff_eq, hmarks.1, hmarks.2.1, hmarks.2.2.1, or_self,
    not_false_eq_true]

/-- **A word of pairs is read apart from the words behind it.** -/
theorem readWords_cons (aliases : AliasTable) {w : List Char} (h : ∀ c ∈ w, IsWordChar c)
    (hname : isName w = false) (ws : List (List Char)) :
    readWords aliases (w :: ws) = readPairs aliases w ++ readWords aliases ws := by
  rw [readWords.eq_def]
  simp only [generated?_eq_none h, isCalculation_eq_false h, hname, Bool.false_eq_true, if_false]

/-! ### Segments -/

theorem splitWhere_append_of_neg {p : Char → Bool} {before : List Char}
    (h : ∀ c ∈ before, p c = false) {cs field : List Char} {fields : List (List Char)}
    (hcs : splitWhere p cs = field :: fields) :
    splitWhere p (before ++ cs) = (before ++ field) :: fields := by
  induction before with
  | nil => exact hcs
  | cons c before ih =>
    rw [List.forall_mem_cons] at h
    rw [List.cons_append, splitWhere, if_neg (ne_true_of_eq_false h.1), ih h.2, List.cons_append]

/-- A text without a bar is a single segment. -/
theorem readSegments_of_no_bar (aliases : AliasTable) {cs : List Char} (h : '|' ∉ cs) :
    readSegments aliases cs = readWords aliases (words cs) := by
  have hsplit : splitWhere (· == '|') cs = [cs] := by
    refine splitWhere_eq_singleton fun c hc => ?_
    rw [beq_eq_false_iff_ne]
    exact fun hbar => h (hbar ▸ hc)
  rw [readSegments, hsplit, List.flatMap_singleton]

/-- Where a text begins with other characters than bars, these belong to the first segment. -/
theorem readSegments_append (aliases : AliasTable) {before : List Char} (h : '|' ∉ before)
    (after : List Char) :
    ∃ field operations, readSegments aliases after =
        readWords aliases (words field) ++ operations ∧
      readSegments aliases (before ++ after) =
        readWords aliases (words (before ++ field)) ++ operations := by
  have hbefore : ∀ c ∈ before, (c == '|') = false := by
    intro c hc
    rw [beq_eq_false_iff_ne]
    exact fun hbar => h (hbar ▸ hc)
  rcases hsplit : splitWhere (· == '|') after with _ | ⟨field, fields⟩
  · exact absurd hsplit (splitWhere_ne_nil _ _)
  · refine ⟨field, fields.flatMap fun segment => readWords aliases (words segment), ?_, ?_⟩
    · rw [readSegments, hsplit, List.flatMap_cons]
    · rw [readSegments, splitWhere_append_of_neg hbefore hsplit, List.flatMap_cons]

/-- A character that divides the instructions of a text. -/
def IsGapChar (c : Char) : Prop := isBlank c = true ∨ c = '|'

instance (c : Char) : Decidable (IsGapChar c) := inferInstanceAs (Decidable (_ ∨ _))

theorem readSegments_cons_gap (aliases : AliasTable) {c : Char} (hc : IsGapChar c)
    (after : List Char) : readSegments aliases (c :: after) = readSegments aliases after := by
  rcases hc with hblank | rfl
  · have hbar : '|' ∉ [c] := by
      intro hmem
      rw [← List.mem_singleton.1 hmem] at hblank
      exact absurd hblank (by decide)
    obtain ⟨field, operations, hafter, hall⟩ := readSegments_append aliases hbar after
    have hwords : words ([c] ++ field) = words field := words_append_cons hblank [] field
    rw [hafter, ← hwords, ← hall, List.singleton_append]
  · exact readSegments_append_cons aliases [] after

theorem readSegments_append_gap (aliases : AliasTable) {gap : List Char}
    (hgap : ∀ c ∈ gap, IsGapChar c) (after : List Char) :
    readSegments aliases (gap ++ after) = readSegments aliases after := by
  induction gap with
  | nil => rfl
  | cons c gap ih =>
    rw [List.forall_mem_cons] at hgap
    rw [List.cons_append, readSegments_cons_gap aliases hgap.1, ih hgap.2]

section Word

variable (aliases : AliasTable) {w : List Char} (h : ∀ c ∈ w, IsWordChar c) (hne : w ≠ [])
  (hname : isName w = false)

include h in
theorem bar_not_mem_word : '|' ∉ w := fun hmem => absurd (h '|' hmem) (by decide)

include h hne in
theorem words_word : words w = [w] := words_eq_singleton hne fun c hc => (h c hc).1

include h hne hname in
theorem readSegments_word : readSegments aliases w = readPairs aliases w := by
  rw [readSegments_of_no_bar aliases (bar_not_mem_word h), words_word h hne,
    readWords_cons aliases h hname, readWords, List.append_nil]

include h hne hname in
/-- A word of pairs ends where a gap begins. -/
theorem readSegments_word_cons {c : Char} (hc : IsGapChar c) (after : List Char) :
    readSegments aliases (w ++ c :: after) =
      readPairs aliases w ++ readSegments aliases after := by
  rcases hc with hblank | rfl
  · have hbar : '|' ∉ w ++ [c] := by
      intro hmem
      rcases List.mem_append.1 hmem with hmem | hmem
      · exact bar_not_mem_word h hmem
      · rw [← List.mem_singleton.1 hmem] at hblank
        exact absurd hblank (by decide)
    obtain ⟨field, operations, hafter, hall⟩ := readSegments_append aliases hbar after
    have hwords : words (w ++ [c] ++ field) = w :: words field := by
      rw [List.append_assoc, List.singleton_append, words_append_cons hblank, words_word h hne,
        List.singleton_append]
    rw [hwords, readWords_cons aliases h hname, List.append_assoc (readPairs aliases w),
      ← hafter, List.append_assoc, List.singleton_append] at hall
    exact hall
  · rw [readSegments_append_cons, readSegments_word aliases h hne hname]

end Word

/-! ### Written texts -/

/-- What stands between two instructions. -/
structure Gap where
  chars : List Char
  isGap : ∀ c ∈ chars, IsGapChar c

/-- Further instructions, each with the gap before it. -/
def writtenMore (more : List (Gap × Instruction)) : List Char :=
  more.flatMap fun p => p.1.chars ++ p.2.chars

/-- The text of a first instruction and of further ones. -/
def written (first : Instruction) (more : List (Gap × Instruction)) : List Char :=
  first.chars ++ writtenMore more

/-- The operation that an instruction is to be read as. -/
def Instruction.operation (aliases : AliasTable) (i : Instruction) : Operation :=
  ⟨aliases.normalize (String.ofList i.name), i.operator.kind, i.amount⟩

theorem forall_mem_term {P : Char → Prop} (hdigit : ∀ c, isDigit c = true → P c)
    (hletter : ∀ c, Dice.isDiceLetter c = true → P c) (t : Term) : ∀ c ∈ t.chars, P c := by
  cases t with
  | number n => exact fun c hc => hdigit c (n.isDigit c hc)
  | dice count letter faces =>
    intro c hc
    rw [Term.chars, List.mem_append, List.mem_cons] at hc
    rcases hc with hc | rfl | hc
    · cases count with
      | none => cases hc
      | some n => exact hdigit c (n.isDigit c hc)
    · exact hletter _ letter.2
    · exact hdigit c (faces.isDigit c hc)

theorem forall_mem_chars (i : Instruction) : ∀ c ∈ i.chars, IsWordChar c := by
  have hterm := forall_mem_term (fun _ => isWordChar_of_isDigit) fun _ => isWordChar_of_isDiceLetter
  intro c hc
  rw [Instruction.chars, Instruction.chain, List.mem_append, List.mem_cons, List.mem_append] at hc
  rcases hc with hc | rfl | hc | hc
  · exact isWordChar_of_isNameChar (i.isName c hc)
  · exact isWordChar_operator i.operator
  · exact hterm i.first c hc
  · obtain ⟨⟨s, t⟩, -, hc⟩ := List.mem_flatMap.1 hc
    rcases List.mem_cons.1 hc with rfl | hc
    · exact isWordChar_symbol s
    · exact hterm t c hc

theorem forall_mem_flatMap_chars (l : List Instruction) :
    ∀ c ∈ l.flatMap Instruction.chars, IsWordChar c := by
  intro c hc
  obtain ⟨i, -, hc⟩ := List.mem_flatMap.1 hc
  exact forall_mem_chars i c hc

/-- A row of instructions is no name, since it has an operator. -/
theorem isName_flatMap_chars {l : List Instruction} (hne : l ≠ []) :
    isName (l.flatMap Instruction.chars) = false := by
  rcases l with _ | ⟨i, l⟩
  · exact absurd rfl hne
  · have hoperator : isNameChar i.operator.symbol = false :=
      (classes_of_mem_marks i.operator.symbol_mem_marks).2
    rw [isName, List.flatMap_cons, Instruction.chars, List.all_append, List.all_append,
      List.all_cons, hoperator, Bool.false_and, Bool.and_false, Bool.false_and, Bool.and_false]

theorem flatMap_chars_ne_nil {l : List Instruction} (hne : l ≠ []) :
    l.flatMap Instruction.chars ≠ [] := by
  rcases l with _ | ⟨i, l⟩
  · exact absurd rfl hne
  · exact List.append_ne_nil_of_left_ne_nil i.chars_ne_nil _

theorem readPairs_flatMap_chars (aliases : AliasTable) (l : List Instruction) :
    readPairs aliases (l.flatMap Instruction.chars) = l.map (Instruction.operation aliases) := by
  rw [readPairs, pairs?_flatMap_chars, Option.getD_some, List.map_map]
  rfl

/-- **The operations of a text of instructions**, of which some in a row have been read already. -/
theorem readSegments_written (aliases : AliasTable) (row : List Instruction) (hne : row ≠ [])
    (more : List (Gap × Instruction)) :
    readSegments aliases (row.flatMap Instruction.chars ++ writtenMore more) =
      (row ++ more.map Prod.snd).map (Instruction.operation aliases) := by
  induction more generalizing row with
  | nil =>
    rw [writtenMore, List.flatMap_nil, List.append_nil, List.map_nil, List.append_nil,
      readSegments_word aliases (forall_mem_flatMap_chars row) (flatMap_chars_ne_nil hne)
        (isName_flatMap_chars hne), readPairs_flatMap_chars]
  | cons p more ih =>
    obtain ⟨gap, i⟩ := p
    have hmore : writtenMore ((gap, i) :: more) =
        gap.chars ++ (i.chars ++ writtenMore more) := by
      rw [writtenMore, List.flatMap_cons, List.append_assoc]
      rfl
    rw [hmore, List.map_cons]
    rcases hgap : gap.chars with _ | ⟨c, cs⟩
    · -- The next instruction belongs to the same word.
      have ih := ih (row ++ [i]) (List.append_ne_nil_of_right_ne_nil _ (List.cons_ne_nil _ _))
      rw [List.flatMap_append, List.flatMap_singleton, List.append_assoc, List.append_assoc,
        List.singleton_append] at ih
      rw [List.nil_append]
      exact ih
    · -- The word ends, and the next instruction starts a new one.
      have hchars : ∀ d ∈ c :: cs, IsGapChar d := hgap ▸ gap.isGap
      rw [List.forall_mem_cons] at hchars
      have ih := ih [i] (List.cons_ne_nil _ _)
      rw [List.flatMap_singleton, List.singleton_append] at ih
      rw [List.cons_append, readSegments_word_cons aliases (forall_mem_flatMap_chars row)
        (flatMap_chars_ne_nil hne) (isName_flatMap_chars hne) hchars.1,
        readSegments_append_gap aliases hchars.2, ih, readPairs_flatMap_chars, List.map_append]

/-! ### Cards -/

/-- No two dashes stand side by side. -/
def Undashed (cs : List Char) : Prop := cs.IsChain fun a b => a = '-' → b ≠ '-'

instance (cs : List Char) : Decidable (Undashed cs) := inferInstanceAs (Decidable (cs.IsChain _))

theorem undashed_cons {c : Char} {cs : List Char} (h : ∀ d ∈ cs.head?, d ≠ '-')
    (hcs : Undashed cs) : Undashed (c :: cs) :=
  List.isChain_cons.2 ⟨fun d hd _ => h d hd, hcs⟩

theorem undashed_append {before cs : List Char} (h : ∀ c ∈ before, c ≠ '-')
    (hcs : Undashed cs) : Undashed (before ++ cs) := by
  induction before with
  | nil => exact hcs
  | cons c before ih =>
    rw [List.forall_mem_cons] at h
    exact List.isChain_cons.2 ⟨fun _ _ hdash => absurd hdash h.1, ih h.2⟩

/-- Without two dashes side by side there is nothing that could name a card. -/
theorem splitDash_of_undashed {cs : List Char} (h : Undashed cs) (before : List Char) :
    splitDash before cs = none := by
  induction cs generalizing before with
  | nil => rfl
  | cons c rest ih =>
    rw [Undashed, List.isChain_cons] at h
    unfold splitDash
    split
    · next after more =>
      have hc : (c == '-') = false := by
        rw [beq_eq_false_iff_ne]
        exact fun hdash => h.1 '-' rfl hdash rfl
      rw [hc, Bool.and_false, if_neg Bool.false_ne_true]
      exact ih h.2 _
    · exact ih h.2 _

theorem ne_dash_of_not_mem_marks {c : Char} (h : c ∉ marks) : c ≠ '-' := by
  rintro rfl
  exact h (by decide)

theorem ne_dash_of_mem_term (t : Term) : ∀ c ∈ t.chars, c ≠ '-' := by
  refine forall_mem_term ?_ ?_ t
  · exact fun c hc => ne_dash_of_not_mem_marks (not_mem_marks_of_isDigit hc)
  · intro c hc
    rcases Dice.isDiceLetter_iff.1 hc with rfl | rfl
    · decide
    · decide

theorem Term.chars_ne_nil (t : Term) : t.chars ≠ [] := by
  cases t with
  | number n => exact List.isEmpty_eq_false_iff.1 n.isEmpty_eq_false
  | dice count letter faces => exact List.append_ne_nil_of_right_ne_nil _ (List.cons_ne_nil _ _)

theorem undashed_cons_term (c : Char) (t : Term) {rest : List Char} (h : Undashed rest) :
    Undashed (c :: (t.chars ++ rest)) := by
  refine undashed_cons ?_ (undashed_append (ne_dash_of_mem_term t) h)
  intro d hd
  rw [List.head?_append_of_ne_nil _ t.chars_ne_nil] at hd
  exact ne_dash_of_mem_term t d (List.mem_of_mem_head? hd)

theorem undashed_moreChars (more : List (Dice.Sign × Term)) {rest : List Char}
    (h : Undashed rest) : Undashed (moreChars more ++ rest) := by
  induction more with
  | nil => exact h
  | cons p more ih =>
    rw [moreChars, List.flatMap_cons, List.cons_append, List.cons_append, List.append_assoc]
    exact undashed_cons_term _ p.2 ih

/-- Behind the dash of an instruction there is a term. -/
theorem undashed_chars (i : Instruction) {rest : List Char} (h : Undashed rest) :
    Undashed (i.chars ++ rest) := by
  rw [Instruction.chars, Instruction.chain, List.append_assoc, List.cons_append, List.append_assoc]
  exact undashed_append
    (fun c hc => ne_dash_of_not_mem_marks (not_mem_marks_of_isNameChar (i.isName c hc)))
    (undashed_cons_term _ i.first (undashed_moreChars i.more h))

theorem ne_dash_of_isGapChar {c : Char} (h : IsGapChar c) : c ≠ '-' := by
  rintro rfl
  exact absurd h (by decide)

theorem undashed_writtenMore (more : List (Gap × Instruction)) : Undashed (writtenMore more) := by
  induction more with
  | nil => exact .nil
  | cons p more ih =>
    rw [writtenMore, List.flatMap_cons, List.append_assoc]
    exact undashed_append (fun c hc => ne_dash_of_isGapChar (p.1.isGap c hc))
      (undashed_chars p.2 ih)

/-! ### Texts -/

theorem dropWhile_isBlank_eq_self {cs : List Char} (h : ∀ c ∈ cs.head?, isBlank c = false) :
    cs.dropWhile isBlank = cs := by
  cases cs with
  | nil => rfl
  | cons c cs => exact List.dropWhile_cons_of_neg (ne_true_of_eq_false (h c rfl))

theorem trimChars_eq_self {cs : List Char} (hfirst : ∀ c ∈ cs.head?, isBlank c = false)
    (hlast : ∀ c ∈ cs.getLast?, isBlank c = false) : trimChars cs = cs := by
  rw [← List.head?_reverse] at hlast
  rw [trimChars, trimWhere, dropWhile_isBlank_eq_self hfirst, dropWhile_isBlank_eq_self hlast,
    List.reverse_reverse]

theorem isBlank_getLast?_append (before : List Char) {cs : List Char} (hne : cs ≠ [])
    (h : ∀ c ∈ cs, IsWordChar c) : ∀ c ∈ (before ++ cs).getLast?, isBlank c = false := by
  intro c hc
  rw [List.getLast?_append_of_ne_nil _ hne] at hc
  exact (h c (List.mem_of_mem_getLast? hc)).1

/-- A text of instructions does not end in a blank. -/
theorem isBlank_getLast?_writtenMore {before : List Char}
    (h : ∀ c ∈ before.getLast?, isBlank c = false) (more : List (Gap × Instruction)) :
    ∀ c ∈ (before ++ writtenMore more).getLast?, isBlank c = false := by
  induction more generalizing before with
  | nil =>
    rw [writtenMore, List.flatMap_nil, List.append_nil]
    exact h
  | cons p more ih =>
    rw [writtenMore, List.flatMap_cons, ← List.append_assoc, ← List.append_assoc]
    exact ih (isBlank_getLast?_append _ p.2.chars_ne_nil (forall_mem_chars p.2))

theorem trimChars_written (first : Instruction) (more : List (Gap × Instruction)) :
    trimChars (written first more) = written first more := by
  have hfirst : ∀ c ∈ first.chars.getLast?, isBlank c = false :=
    isBlank_getLast?_append [] first.chars_ne_nil (forall_mem_chars first)
  refine trimChars_eq_self ?_ (isBlank_getLast?_writtenMore hfirst more)
  intro c hc
  rw [written, List.head?_append_of_ne_nil _ first.chars_ne_nil] at hc
  exact (forall_mem_chars first c (List.mem_of_mem_head? hc)).1

/-- **Instructions are read as they were written, whatever the gaps.**  A directive of instructions
names no card, and it has one operation for each of them, in their order. -/
theorem readDirective_written (aliases : AliasTable) (first : Instruction)
    (more : List (Gap × Instruction)) :
    readDirective aliases (String.ofList (written first more)) =
      ⟨none, (first :: more.map Prod.snd).map (Instruction.operation aliases)⟩ := by
  have hdash : Undashed (written first more) := undashed_chars first (undashed_writtenMore more)
  have hcard : cardAndRest (written first more) = (none, written first more) := by
    rw [cardAndRest, splitDash_of_undashed hdash]
  have hoperations := readSegments_written aliases [first] (List.cons_ne_nil _ _) more
  rw [List.flatMap_singleton, List.singleton_append] at hoperations
  rw [readDirective, String.toList_ofList, trimChars_written, hcard]
  simp only [Option.map_none]
  rw [written, hoperations]

end Tabletop.Attribute
