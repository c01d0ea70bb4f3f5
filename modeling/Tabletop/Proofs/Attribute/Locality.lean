import Tabletop.Proofs.Attribute.Setting

/-!
# Directives are read in parts

A directive is read word by word, and what a word says depends on itself and on the next word only:
a name sets its attribute if the next word is an integer, and all other words are read alone.  So
a text may be cut at a bar, or at a blank, and its parts are read for themselves; only a name before
the blank and an integer behind it belong together.  What stands before a double dash is the name of
a card, and what stands behind it is read as if it stood alone.

## Main definitions

* `wordSays` — what a word says, given the next word.
* `joint` — what a word says to the next one.
* `lastWord?`, `firstWord?` — the words of a text next to a blank at its end or its start.

## Main results

* `readWords_cons_eq` — a segment is what each of its words says, given the next word.
* `readWords_append` — **two lists of words are read apart, but for their joint.**
* `readSegments_append_blank` — a blank divides the operations in the same way.
* `splitDash_of_card` — the card ends at the first double dash.
* `readDirective_local` — **a directive is read in parts.**
-/

namespace Tabletop.Text

/-- A character that is no separator joins the last field before it with the first one behind it. -/
theorem exists_splitWhere_append_cons {p : Char → Bool} {c : Char} (hc : p c = false)
    (before after : List Char) :
    ∃ init last first rest, splitWhere p before = init ++ [last] ∧
      splitWhere p after = first :: rest ∧
      splitWhere p (before ++ c :: after) = init ++ (last ++ c :: first) :: rest := by
  induction before with
  | nil =>
    rcases hafter : splitWhere p after with _ | ⟨first, rest⟩
    · exact absurd hafter (splitWhere_ne_nil p after)
    · refine ⟨[], [], first, rest, rfl, rfl, ?_⟩
      rw [List.nil_append, splitWhere, if_neg (ne_true_of_eq_false hc), hafter]
      rfl
  | cons b before ih =>
    obtain ⟨init, last, first, rest, hbefore, hafter, happend⟩ := ih
    rw [List.cons_append]
    by_cases hb : p b = true
    · refine ⟨[] :: init, last, first, rest, ?_, hafter, ?_⟩
      · rw [splitWhere_cons_of_pos hb, hbefore, List.cons_append]
      · rw [splitWhere_cons_of_pos hb, happend, List.cons_append]
    · -- The character goes to the first field, which is the last one if there is only one.
      rw [splitWhere, if_neg hb, hbefore, splitWhere, if_neg hb, happend]
      rcases init with _ | ⟨field, init⟩
      · exact ⟨[], b :: last, first, rest, rfl, hafter, rfl⟩
      · exact ⟨(b :: field) :: init, last, first, rest, rfl, hafter, rfl⟩

end Tabletop.Text

namespace Tabletop.Attribute

open Text

/-! ### Integers -/

theorem pairs?_eq_none {c : Char} (hc : isNameChar c = false) (cs : List Char) :
    pairs? (c :: cs) = none := by
  have hpair : pair? (c :: cs) = none := by
    rw [pair?, pairAfter]
    simp only [List.isEmpty_nil, if_true, hc, Bool.false_eq_true, if_false]
  rw [pairs?]
  split
  · next h =>
    rw [hpair] at h
    cases h
  · rfl

/-- **An integer says nothing by itself.** -/
theorem readWords_integer (aliases : AliasTable) {w : List Char} {n : Int}
    (h : integer? w = some n) (ws : List (List Char)) :
    readWords aliases (w :: ws) = readWords aliases ws := by
  obtain ⟨m, hm⟩ := exists_numeral_of_integer? h
  -- It starts with a digit or a sign, and neither is in a name.
  obtain ⟨c, cs, rfl, hc, hword⟩ : ∃ c cs, w = c :: cs ∧ isNameChar c = false ∧
      ∀ d ∈ w, IsWordChar d := by
    rcases hm with ⟨rfl, -⟩ | ⟨s, rfl, -⟩
    · rcases hdigits : m.digits with _ | ⟨c, cs⟩
      · exact absurd hdigits (List.isEmpty_eq_false_iff.1 m.isEmpty_eq_false)
      · have hall := hdigits ▸ m.isDigit
        refine ⟨c, cs, rfl, ?_, fun d hd => isWordChar_of_isDigit (hall d hd)⟩
        rw [Bool.eq_false_iff]
        intro hname
        have hdigit := hall c List.mem_cons_self
        rw [isDigit_eq_false_of_isNameChar hname] at hdigit
        cases hdigit
    · refine ⟨s.symbol, m.digits, rfl, (classes_of_mem_marks (symbol_mem_marks s)).2, ?_⟩
      exact List.forall_mem_cons.2
        ⟨isWordChar_symbol s, fun d hd => isWordChar_of_isDigit (m.isDigit d hd)⟩
  have hname : isName (c :: cs) = false := by
    rw [isName, List.all_cons, hc, Bool.false_and, Bool.and_false]
  rw [readWords_cons aliases hword hname, readPairs_of_none (pairs?_eq_none hc cs),
    List.nil_append]

/-! ### Words -/

/-- What a word says to the next one: a name sets its attribute to an integer. -/
def joint (aliases : AliasTable) : Option (List Char) → Option (List Char) → List Operation
  | some word, some next =>
    if isName word then ((integer? next).map (setTo aliases word)).toList else []
  | _, _ => []

/-- What a word says, given the next word. -/
def wordSays (aliases : AliasTable) (word : List Char) (next : Option (List Char)) :
    List Operation :=
  match generated? word with
  | some (name, digits) => [setTo aliases name (numeralValue digits)]
  | none =>
    if isCalculation word then []
    else if isName word then joint aliases (some word) next
    else readPairs aliases word

@[simp] theorem joint_none_left (aliases : AliasTable) (next : Option (List Char)) :
    joint aliases none next = [] := rfl

@[simp] theorem joint_none_right (aliases : AliasTable) (last : Option (List Char)) :
    joint aliases last none = [] := by
  cases last with
  | none => rfl
  | some word => rfl

theorem joint_of_not_isName (aliases : AliasTable) {word : List Char} (h : isName word = false)
    (next : Option (List Char)) : joint aliases (some word) next = [] := by
  cases next with
  | none => rfl
  | some next => exact if_neg (ne_true_of_eq_false h)

/-- **A segment is what each of its words says**, given the next word. -/
theorem readWords_cons_eq (aliases : AliasTable) (word : List Char) (ws : List (List Char)) :
    readWords aliases (word :: ws) =
      wordSays aliases word ws.head? ++ readWords aliases ws := by
  rw [readWords.eq_def, wordSays]
  rcases hgenerated : generated? word with _ | ⟨name, digits⟩
  · by_cases hcalculation : isCalculation word = true
    · simp only [hgenerated, hcalculation, if_true, List.nil_append]
    by_cases hname : isName word = true
    · simp only [hgenerated, hcalculation, hname, if_true, Bool.false_eq_true, if_false]
      rcases ws with _ | ⟨next, rest⟩
      · rfl
      simp only [List.head?_cons, joint, hname, if_true]
      rcases hnext : integer? next with _ | n
      · rfl
      · -- The number has been taken by the name, and says nothing more.
        rw [readWords_integer aliases hnext]
        rfl
    · simp only [hgenerated, hcalculation, hname, Bool.false_eq_true, if_false]
  · simp only [hgenerated]
    rfl

/-- A name is neither generated nor a calculation. -/
theorem wordSays_name (aliases : AliasTable) {word : List Char} (h : isName word = true)
    (next : Option (List Char)) : wordSays aliases word next = joint aliases (some word) next := by
  have hchars : ∀ c ∈ word, IsWordChar c := by
    rw [isName, Bool.and_eq_true, List.all_eq_true] at h
    exact fun c hc => isWordChar_of_isNameChar (h.2 c hc)
  rw [wordSays, generated?_eq_none hchars, isCalculation_eq_false hchars]
  simp only [Bool.false_eq_true, if_false, h, if_true]

/-- The next word matters at the joint only. -/
theorem wordSays_eq_append_joint (aliases : AliasTable) (word : List Char)
    (next : Option (List Char)) :
    wordSays aliases word next = wordSays aliases word none ++ joint aliases (some word) next := by
  cases hname : isName word with
  | true =>
    rw [wordSays_name aliases hname, wordSays_name aliases hname, joint_none_right, List.nil_append]
  | false =>
    rw [joint_of_not_isName aliases hname, List.append_nil, wordSays, wordSays]
    simp only [hname, Bool.false_eq_true, if_false]

/-- **Two lists of words are read apart, but for their joint.** -/
theorem readWords_append (aliases : AliasTable) (before after : List (List Char)) :
    readWords aliases (before ++ after) =
      readWords aliases before ++ joint aliases before.getLast? after.head? ++
        readWords aliases after := by
  induction before with
  | nil =>
    rw [List.nil_append, List.getLast?_nil, joint_none_left, readWords, List.nil_append,
      List.nil_append]
  | cons word before ih =>
    rw [List.cons_append, readWords_cons_eq, readWords_cons_eq, ih]
    cases before with
    | nil =>
      rw [List.nil_append, wordSays_eq_append_joint aliases word after.head?, List.getLast?_nil,
        joint_none_left, readWords, List.head?_nil, List.getLast?_singleton]
      simp only [List.append_nil, List.nil_append]
    | cons word' before =>
      rw [List.getLast?_cons_cons, List.cons_append, List.head?_cons, List.head?_cons]
      simp only [List.append_assoc]

/-! ### Segments -/

/-- The word at the end of a text, in its last segment. -/
def lastWord? (cs : List Char) : Option (List Char) :=
  (splitWhere (· == '|') cs).getLast?.bind fun segment => (words segment).getLast?

/-- The word at the start of a text, in its first segment. -/
def firstWord? (cs : List Char) : Option (List Char) :=
  (splitWhere (· == '|') cs).head?.bind fun segment => (words segment).head?

/-- **A blank divides the operations**, but for the joint of the words around it. -/
theorem readSegments_append_blank (aliases : AliasTable) {c : Char} (hc : isBlank c = true)
    (before after : List Char) :
    readSegments aliases (before ++ c :: after) =
      readSegments aliases before ++ joint aliases (lastWord? before) (firstWord? after) ++
        readSegments aliases after := by
  have hbar : (c == '|') = false := beq_eq_false_iff_ne.2 (no_bar_of_isBlank hc).1
  obtain ⟨init, last, first, rest, hbefore, hafter, happend⟩ :=
    exists_splitWhere_append_cons (p := (· == '|')) hbar before after
  have hwords := words_append_cons hc last first
  rw [readSegments, readSegments, readSegments, lastWord?, firstWord?, happend, hbefore, hafter,
    List.getLast?_concat, List.head?_cons, Option.bind_some, Option.bind_some]
  simp only [List.flatMap_append, List.flatMap_cons, List.flatMap_nil, hwords, readWords_append,
    List.append_assoc, List.append_nil]

theorem readSegments_dropWhile (aliases : AliasTable) (cs : List Char) :
    readSegments aliases (cs.dropWhile isBlank) = readSegments aliases cs := by
  induction cs with
  | nil => rfl
  | cons c cs ih =>
    by_cases hc : isBlank c = true
    · rw [List.dropWhile_cons_of_pos hc, ih, readSegments_cons_gap aliases (Or.inl hc)]
    · rw [List.dropWhile_cons_of_neg hc]

theorem readSegments_reverse_dropWhile (aliases : AliasTable) (cs : List Char) :
    readSegments aliases (cs.dropWhile isBlank).reverse = readSegments aliases cs.reverse := by
  induction cs with
  | nil => rfl
  | cons c cs ih =>
    by_cases hc : isBlank c = true
    · have hjoint : joint aliases (lastWord? cs.reverse) (firstWord? []) = [] :=
        joint_none_right aliases _
      rw [List.dropWhile_cons_of_pos hc, ih, List.reverse_cons,
        readSegments_append_blank aliases hc, hjoint, List.append_nil]
      exact (List.append_nil _).symm
    · rw [List.dropWhile_cons_of_neg hc]

/-- The blanks at the ends of a text say nothing. -/
theorem readSegments_trimChars (aliases : AliasTable) (cs : List Char) :
    readSegments aliases (trimChars cs) = readSegments aliases cs := by
  rw [trimChars, trimWhere, readSegments_reverse_dropWhile, List.reverse_reverse,
    readSegments_dropWhile]

/-! ### Cards -/

/-- **The card ends at the first double dash**, if it does not end in a dash itself. -/
theorem splitDash_of_card {card : List Char} (hcard : Undashed (card ++ ['-'])) (before : List Char)
    (hne : before ++ card ≠ []) (c : Char) (rest : List Char) :
    splitDash before (card ++ '-' :: '-' :: c :: rest) = some (before ++ card, c :: rest) := by
  induction card generalizing before with
  | nil =>
    rw [List.append_nil] at hne ⊢
    have hbefore : before.isEmpty = false := List.isEmpty_eq_false_iff.2 hne
    rw [List.nil_append, splitDash, hbefore]
    rfl
  | cons d card ih =>
    rw [List.cons_append, Undashed, List.isChain_cons] at hcard
    have hmore : before ++ [d] ≠ [] :=
      List.append_ne_nil_of_right_ne_nil before (List.cons_ne_nil d [])
    have hgoesOn := ih hcard.2 (before ++ [d]) (List.append_ne_nil_of_left_ne_nil hmore card)
    rw [List.append_assoc, List.singleton_append] at hgoesOn
    rw [List.cons_append]
    unfold splitDash
    split
    · next after more htail =>
      -- The next character is a dash, so this one is none.
      have hnext : (card ++ ['-']).head? = some '-' := by
        cases card with
        | nil => rfl
        | cons b card => exact congrArg List.head? htail
      have hd : (d == '-') = false := by
        rw [beq_eq_false_iff_ne]
        exact fun hdash => hcard.1 '-' hnext hdash rfl
      rw [hd, Bool.and_false, if_neg Bool.false_ne_true]
      exact hgoesOn
    · exact hgoesOn

theorem dropWhile_append_of_exists {p : Char → Bool} {cs : List Char} (h : ∃ c ∈ cs, p c = false)
    (rest : List Char) : (cs ++ rest).dropWhile p = cs.dropWhile p ++ rest := by
  obtain ⟨c, hc, hp⟩ := h
  have hne : cs.dropWhile p ≠ [] := by
    intro hnil
    have hall := List.dropWhile_eq_nil_iff.1 hnil c hc
    rw [hp] at hall
    cases hall
  rw [List.dropWhile_append, if_neg (ne_true_of_eq_false (List.isEmpty_eq_false_iff.2 hne))]

/-- A text without two dashes side by side names no card. -/
theorem readDirective_of_undashed (aliases : AliasTable) {text : String}
    (h : Undashed text.toList) :
    readDirective aliases text = ⟨none, readSegments aliases text.toList⟩ := by
  have hstart : trimChars text.toList <+: text.toList.dropWhile isBlank := by
    rw [trimChars, trimWhere, ← List.reverse_suffix, List.reverse_reverse]
    exact List.dropWhile_suffix isBlank
  have hinner : Undashed (trimChars text.toList) :=
    List.IsChain.infix h (hstart.isInfix.trans (List.dropWhile_suffix isBlank).isInfix)
  rw [readDirective, cardAndRest, splitDash_of_undashed hinner]
  simp only [Option.map_none]
  rw [readSegments_trimChars]

/-- **What stands before a double dash is the name of a card**, and what stands behind it is read as
if it stood alone. -/
theorem readDirective_of_card (aliases : AliasTable) {card text : String}
    (hcard : Undashed card.toList) (hend : card.toList.getLast? ≠ some '-')
    (hname : ∃ c ∈ card.toList, isBlank c = false) (htext : Undashed text.toList)
    (hnonblank : ∃ c ∈ text.toList, isBlank c = false) :
    readDirective aliases (card ++ "--" ++ text) =
      ⟨some (trim card), (readDirective aliases text).operations⟩ := by
  have hchars : (card ++ "--" ++ text).toList = card.toList ++ '-' :: '-' :: text.toList := by
    rw [String.toList_append, String.toList_append, List.append_assoc]
    rfl
  -- Trimming the whole text trims the start of the card and the end of the rest.
  obtain ⟨c, rest, hrest⟩ : ∃ c rest,
      (text.toList.reverse.dropWhile isBlank).reverse = c :: rest := by
    apply List.exists_cons_of_ne_nil
    rw [ne_eq, List.reverse_eq_nil_iff, List.dropWhile_eq_nil_iff]
    obtain ⟨c, hc, hblank⟩ := hnonblank
    intro hall
    rw [hall c (List.mem_reverse.2 hc)] at hblank
    cases hblank
  have htrim : trimChars (card.toList ++ '-' :: '-' :: text.toList) =
      card.toList.dropWhile isBlank ++ '-' :: '-' :: c :: rest := by
    have hreverse : ∃ c ∈ text.toList.reverse, isBlank c = false := by
      simpa only [List.mem_reverse] using hnonblank
    rw [trimChars, trimWhere, dropWhile_append_of_exists hname, List.reverse_append,
      List.reverse_cons, List.reverse_cons, List.append_assoc, List.append_assoc,
      dropWhile_append_of_exists hreverse, List.reverse_append, hrest]
    simp only [List.reverse_reverse, List.reverse_cons, List.nil_append, List.append_assoc,
      List.cons_append]
  have hsplit : splitDash [] (card.toList.dropWhile isBlank ++ '-' :: '-' :: c :: rest) =
      some (card.toList.dropWhile isBlank, c :: rest) := by
    obtain ⟨blanks, hblanks⟩ := List.dropWhile_suffix (l := card.toList) isBlank
    have hdashed : Undashed (card.toList ++ ['-']) := by
      refine hcard.append (.singleton '-') ?_
      rintro d hd _ _ rfl
      exact absurd hd hend
    rw [← hblanks, List.append_assoc] at hdashed
    refine splitDash_of_card hdashed.right_of_append [] ?_ c rest
    rw [List.nil_append, ne_eq, List.dropWhile_eq_nil_iff]
    intro hall
    obtain ⟨c, hc, hblank⟩ := hname
    rw [hall c hc] at hblank
    cases hblank
  have hself : trimChars (card.toList.dropWhile isBlank) = trimChars card.toList := by
    rw [trimChars, trimWhere, dropWhile_eq_self_of_prefix (List.prefix_refl _)]
    rfl
  rw [readDirective, hchars, htrim, cardAndRest, hsplit, readDirective_of_undashed aliases htext]
  simp only [Option.map_some, hself, readSegments_trimChars, ← hrest]
  rw [readSegments_reverse_dropWhile, List.reverse_reverse, trim]

/-! ### Texts in parts -/

/-- Whether a name at the end of a text meets an integer at the start of the text behind it. -/
def meets (before after : List Char) : Bool :=
  match lastWord? before, firstWord? after with
  | some name, some number => isName name && (integer? number).isSome
  | _, _ => false

theorem joint_of_not_meets (aliases : AliasTable) {before after : List Char}
    (h : meets before after = false) :
    joint aliases (lastWord? before) (firstWord? after) = [] := by
  unfold meets at h
  split at h
  · next name number hlast hfirst =>
    rw [hlast, hfirst, joint]
    cases hname : isName name with
    | false => rfl
    | true =>
      rw [hname, Bool.true_and, Option.isSome_eq_false_iff, Option.isNone_iff_eq_none] at h
      rw [h]
      rfl
  · next hnone =>
    rcases hlast : lastWord? before with _ | name
    · rfl
    rcases hfirst : firstWord? after with _ | number
    · rfl
    · exact absurd hfirst (hnone name number hlast)

/-- A name that meets an integer is set to it. -/
theorem joint_of_meets (aliases : AliasTable) {before after : List Char}
    (h : meets before after = true) :
    ∃ name number n, lastWord? before = some name ∧ firstWord? after = some number ∧
      integer? number = some n ∧
      joint aliases (lastWord? before) (firstWord? after) = [setTo aliases name n] := by
  unfold meets at h
  split at h
  · next name number hlast hfirst =>
    rw [Bool.and_eq_true] at h
    obtain ⟨n, hnumber⟩ := Option.isSome_iff_exists.1 h.2
    refine ⟨name, number, n, hlast, hfirst, hnumber, ?_⟩
    rw [hlast, hfirst, joint, if_pos h.1, hnumber]
    rfl
  · cases h

/-- A word of a text: there are no blanks and no bars in it. -/
def IsWord (w : List Char) : Prop := w ≠ [] ∧ ∀ c ∈ w, isBlank c = false ∧ c ≠ '|'

section Word

variable {w : List Char} (h : IsWord w)
include h

theorem splitWhere_word : splitWhere (· == '|') w = [w] :=
  splitWhere_eq_singleton fun c hc => beq_eq_false_iff_ne.2 (h.2 c hc).2

theorem firstWord?_word : firstWord? w = some w := by
  rw [firstWord?, splitWhere_word h, List.head?_cons, Option.bind_some,
    words_eq_singleton h.1 fun c hc => (h.2 c hc).1, List.head?_cons]

theorem firstWord?_word_append {c : Char} (hc : isBlank c = true) (after : List Char) :
    firstWord? (w ++ c :: after) = some w := by
  have hbar : (c == '|') = false := beq_eq_false_iff_ne.2 (no_bar_of_isBlank hc).1
  obtain ⟨init, last, first, rest, hword, -, happend⟩ :=
    exists_splitWhere_append_cons (p := (· == '|')) hbar w after
  rw [splitWhere_word h, ← List.nil_append [w]] at hword
  obtain ⟨rfl, hlast⟩ := List.append_inj' hword rfl
  obtain rfl := List.singleton_inj.1 hlast
  rw [firstWord?, happend, List.nil_append, List.head?_cons, Option.bind_some,
    words_append_cons hc, words_eq_singleton h.1 fun c hc => (h.2 c hc).1]
  rfl

end Word

section Parts

variable (aliases : AliasTable) {before after : String}

/-- A bar divides a directive. -/
theorem readDirective_append_bar (h : Undashed (before ++ "|" ++ after).toList) :
    readDirective aliases (before ++ "|" ++ after) =
      ⟨none, (readDirective aliases before).operations ++
        (readDirective aliases after).operations⟩ := by
  have hchars : (before ++ "|" ++ after).toList = before.toList ++ '|' :: after.toList := by
    rw [String.toList_append, String.toList_append, List.append_assoc]
    rfl
  rw [readDirective_of_undashed aliases h, hchars, readSegments_append_cons]
  rw [hchars] at h
  rw [readDirective_of_undashed aliases h.left_of_append,
    readDirective_of_undashed aliases h.right_of_append.tail]

/-- A space divides a directive, but for the joint of the words around it. -/
theorem readDirective_append_space (h : Undashed (before ++ " " ++ after).toList) :
    readDirective aliases (before ++ " " ++ after) =
      ⟨none, (readDirective aliases before).operations ++
        joint aliases (lastWord? before.toList) (firstWord? after.toList) ++
          (readDirective aliases after).operations⟩ := by
  have hchars : (before ++ " " ++ after).toList = before.toList ++ ' ' :: after.toList := by
    rw [String.toList_append, String.toList_append, List.append_assoc]
    rfl
  rw [readDirective_of_undashed aliases h, hchars, readSegments_append_blank aliases (by decide)]
  rw [hchars] at h
  rw [readDirective_of_undashed aliases h.left_of_append,
    readDirective_of_undashed aliases h.right_of_append.tail]

/-- **A word that says nothing leaves the others as they are**: the words before it and those behind
it are read as if they stood alone. -/
theorem readDirective_around {word : String} (hword : IsWord word.toList)
    (h : Undashed (before ++ " " ++ (word ++ " " ++ after)).toList)
    (hsilent : (readDirective aliases word).operations = [])
    (hbefore : meets before.toList word.toList = false)
    (hafter : meets word.toList after.toList = false) :
    readDirective aliases (before ++ " " ++ (word ++ " " ++ after)) =
      ⟨none, (readDirective aliases before).operations ++
        (readDirective aliases after).operations⟩ := by
  have hchars : (word ++ " " ++ after).toList = word.toList ++ ' ' :: after.toList := by
    rw [String.toList_append, String.toList_append, List.append_assoc]
    rfl
  have hright : Undashed (word ++ " " ++ after).toList := by
    rw [String.toList_append] at h
    exact h.right_of_append
  have hfirst : firstWord? (word ++ " " ++ after).toList = firstWord? word.toList := by
    rw [hchars, firstWord?_word_append hword (by decide), firstWord?_word hword]
  rw [readDirective_append_space aliases h, readDirective_append_space aliases hright, hsilent,
    hfirst, joint_of_not_meets aliases hbefore, joint_of_not_meets aliases hafter]
  simp only [List.append_nil, List.nil_append]

end Parts

/-- **A directive is read in parts.**  Two texts with a bar between them have the operations of the
first, followed by those of the second.  So have two texts with a space between them, unless a name
meets an integer there; then one operation stands between, which sets the attribute to the integer.

Hence a word that says nothing changes nothing for the words around it: they are read as if the
texts before and behind it stood alone.

What stands before a double dash is the name of a card, and the operations are those of the text
behind it. -/
theorem readDirective_local (aliases : AliasTable) (before after : String) :
    (Undashed (before ++ "|" ++ after).toList →
      readDirective aliases (before ++ "|" ++ after) =
        ⟨none, (readDirective aliases before).operations ++
          (readDirective aliases after).operations⟩) ∧
    (Undashed (before ++ " " ++ after).toList →
      (meets before.toList after.toList = false →
        readDirective aliases (before ++ " " ++ after) =
          ⟨none, (readDirective aliases before).operations ++
            (readDirective aliases after).operations⟩) ∧
      (meets before.toList after.toList = true →
        ∃ name number n, lastWord? before.toList = some name ∧
          firstWord? after.toList = some number ∧ integer? number = some n ∧
          readDirective aliases (before ++ " " ++ after) =
            ⟨none, (readDirective aliases before).operations ++ [setTo aliases name n] ++
              (readDirective aliases after).operations⟩)) ∧
    (∀ word : String, IsWord word.toList →
      Undashed (before ++ " " ++ (word ++ " " ++ after)).toList →
      (readDirective aliases word).operations = [] →
      meets before.toList word.toList = false → meets word.toList after.toList = false →
      readDirective aliases (before ++ " " ++ (word ++ " " ++ after)) =
        ⟨none, (readDirective aliases before).operations ++
          (readDirective aliases after).operations⟩) ∧
    ∀ card : String, Undashed card.toList → card.toList.getLast? ≠ some '-' →
      (∃ c ∈ card.toList, isBlank c = false) → Undashed after.toList →
      (∃ c ∈ after.toList, isBlank c = false) →
      readDirective aliases (card ++ "--" ++ after) =
        ⟨some (trim card), (readDirective aliases after).operations⟩ := by
  refine ⟨readDirective_append_bar aliases, fun h => ⟨?_, ?_⟩, ?_, ?_⟩
  · intro hmeets
    rw [readDirective_append_space aliases h, joint_of_not_meets aliases hmeets, List.append_nil]
  · intro hmeets
    obtain ⟨name, number, n, hlast, hfirst, hnumber, hjoint⟩ := joint_of_meets aliases hmeets
    refine ⟨name, number, n, hlast, hfirst, hnumber, ?_⟩
    rw [readDirective_append_space aliases h, hjoint]
  · exact fun word hword h => readDirective_around aliases hword h
  · exact fun card => readDirective_of_card aliases

/-- The sheet of a card in two parts: a name does not meet an instruction, and noise between the
parts says nothing. -/
theorem readDirective_local_sheet :
    let before := "力量 60 hp"
    let after := "san-5 敏捷 70"
    let operations := (readDirective .builtIn before).operations ++
      (readDirective .builtIn after).operations
    readDirective .builtIn (before ++ "|" ++ after) = ⟨none, operations⟩ ∧
      readDirective .builtIn (before ++ " " ++ after) = ⟨none, operations⟩ ∧
      readDirective .builtIn (before ++ " " ++ ("=?" ++ " " ++ after)) = ⟨none, operations⟩ ∧
      readDirective .builtIn (" Ko-na " ++ "--" ++ after) =
        ⟨some (trim " Ko-na "), (readDirective .builtIn after).operations⟩ := by
  obtain ⟨hbar, hspace, hword, hcard⟩ := readDirective_local .builtIn "力量 60 hp" "san-5 敏捷 70"
  have hnoise : IsWord "=?".toList := by
    refine ⟨by decide, ?_⟩
    intro c hc
    rcases List.mem_pair.1 (show c ∈ ['=', '?'] from hc) with rfl | rfl
    · decide
    · decide
  have hsilent : (readDirective .builtIn "=?").operations = [] := by decide +kernel
  exact ⟨hbar (by decide +kernel), (hspace (by decide +kernel)).1 (by decide +kernel),
    hword "=?" hnoise (by decide +kernel) hsilent (by decide +kernel) (by decide +kernel),
    hcard " Ko-na " (by decide +kernel) (by decide +kernel) ⟨'K', by decide, by decide⟩
      (by decide +kernel) ⟨'s', by decide, by decide⟩⟩

end Tabletop.Attribute
