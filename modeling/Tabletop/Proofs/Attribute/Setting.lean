import Tabletop.Dice.Eval
import Tabletop.Proofs.Attribute.Directive

/-!
# Spellings of a set directive

An attribute is set to a number in three ways: with a blank between name and number, with a colon
between them, or with nothing.  The three mean the same, with one exception.  If nothing stands
between a name of two or more letters and the number, and the last letter is a dice letter, then
the letter is taken as dice of so many faces, since a name is as short as it can be.

## Main definitions

* `Setting` — a name with a number.
* `Setting.spaced`, `Setting.colon`, `Setting.fused` — the three spellings.
* `Setting.operation`, `Setting.fusedOperation` — what they are read as.

## Main results

* `readDirective_eq` — a text without bars and dashes is read word by word.
* `readPairs_fused` — how a name with a number directly behind it is read.
* `readDirective_settings` — **the three spellings are read the same, but for the exception.**
-/

namespace Tabletop.Attribute

open Text

/-! ### Words of a text -/

theorem words_dropWhile (cs : List Char) : words (cs.dropWhile isBlank) = words cs := by
  induction cs with
  | nil => rfl
  | cons c cs ih =>
    by_cases hc : isBlank c = true
    · rw [List.dropWhile_cons_of_pos hc, ih]
      exact (words_append_cons hc [] cs).symm
    · rw [List.dropWhile_cons_of_neg hc]

theorem words_reverse_dropWhile (cs : List Char) :
    words (cs.dropWhile isBlank).reverse = words cs.reverse := by
  induction cs with
  | nil => rfl
  | cons c cs ih =>
    by_cases hc : isBlank c = true
    · rw [List.dropWhile_cons_of_pos hc, ih, List.reverse_cons, words_append_cons hc, words_nil,
        List.append_nil]
    · rw [List.dropWhile_cons_of_neg hc]

/-- The blanks at the ends of a text belong to no word. -/
theorem words_trimChars (cs : List Char) : words (trimChars cs) = words cs := by
  rw [trimChars, trimWhere, words_reverse_dropWhile, List.reverse_reverse, words_dropWhile]

/-- A text without bars and dashes is read word by word. -/
theorem readDirective_eq (aliases : AliasTable) {cs : List Char}
    (h : ∀ c ∈ cs, c ≠ '|' ∧ c ≠ '-') :
    readDirective aliases (String.ofList cs) = ⟨none, readWords aliases (words cs)⟩ := by
  have hsub : ∀ c ∈ trimChars cs, c ∈ cs := by
    intro c hc
    rw [trimChars, trimWhere, List.mem_reverse] at hc
    have hdropped := (List.dropWhile_sublist _).subset hc
    rw [List.mem_reverse] at hdropped
    exact (List.dropWhile_sublist _).subset hdropped
  have hbar : '|' ∉ trimChars cs := fun hmem => (h _ (hsub _ hmem)).1 rfl
  have hdash : Undashed (trimChars cs) := by
    have hundashed := undashed_append (fun c hc => (h c (hsub c hc)).2) (.nil : Undashed [])
    rwa [List.append_nil] at hundashed
  rw [readDirective, String.toList_ofList, cardAndRest, splitDash_of_undashed hdash]
  simp only [Option.map_none]
  rw [readSegments_of_no_bar aliases hbar, words_trimChars]

/-! ### Integers -/

/-- An integer is a numeral that may have a sign. -/
theorem exists_numeral_of_integer? {w : List Char} {n : Int} (h : integer? w = some n) :
    ∃ m : Numeral, (w = m.digits ∧ n = numeralValue m.digits) ∨
      ∃ s : Dice.Sign, w = s.symbol :: m.digits ∧ n = s.apply (numeralValue m.digits) := by
  have hnumeral : ∀ {digits : List Char} {v : Int},
      (if isNumeral digits && digits.all isDigit then some v else none) = some n →
        ∃ m : Numeral, m.digits = digits ∧ v = n := by
    intro digits v h
    split at h
    · next hdigits =>
      rw [Bool.and_eq_true, List.all_eq_true] at hdigits
      exact ⟨⟨digits, hdigits.1, hdigits.2⟩, rfl, Option.some.inj h⟩
    · cases h
  unfold integer? at h
  split at h
  · obtain ⟨m, rfl, rfl⟩ := hnumeral h
    exact ⟨m, Or.inr ⟨.minus, rfl, rfl⟩⟩
  · obtain ⟨m, rfl, rfl⟩ := hnumeral h
    exact ⟨m, Or.inr ⟨.plus, rfl, rfl⟩⟩
  · obtain ⟨m, rfl, rfl⟩ := hnumeral h
    exact ⟨m, Or.inl ⟨rfl, rfl⟩⟩

/-! ### Settings -/

/-- A name with a number of at most nine digits. -/
structure Setting where
  name : List Char
  named : name ≠ []
  isName : ∀ c ∈ name, isNameChar c = true
  value : Nat
  value_lt : value < 10 ^ Dice.maxDigits

/-- One blank or more. -/
structure Blanks where
  chars : List Char
  nonempty : chars ≠ []
  isBlank : ∀ c ∈ chars, isBlank c = true

namespace Setting

/-- The digits of the number. -/
def numeral (s : Setting) : Numeral where
  digits := digitsOf s.value
  isNumeral := by
    have hlen : (digitsOf s.value).length ≤ Dice.maxDigits :=
      (Nat.length_toDigits_le_iff (by decide) (by decide)).2 s.value_lt
    have hpos := List.length_pos_iff.2 (digitsOf_ne_nil s.value)
    simp only [Attribute.isNumeral, Bool.and_eq_true, decide_eq_true_eq]
    exact ⟨hpos, hlen⟩
  isDigit := fun _ hc => isDigit_of_mem_digitsOf hc

/-- A name and a number with blanks between them. -/
def spaced (blanks : Blanks) (s : Setting) : List Char :=
  s.name ++ (blanks.chars ++ s.numeral.digits)

/-- A name and a number with a colon between them. -/
def colon (s : Setting) : List Char := s.name ++ ':' :: s.numeral.digits

/-- A name and a number with nothing between them. -/
def fused (s : Setting) : List Char := s.name ++ s.numeral.digits

/-- The operation that sets the attribute to the number. -/
def operation (aliases : AliasTable) (s : Setting) : Operation :=
  ⟨aliases.normalize (String.ofList s.name), .set, .literal s.value⟩

/-- Whether the name has two or more letters and ends in a dice letter. -/
def endsInDice (s : Setting) : Bool :=
  decide (2 ≤ s.name.length) && Dice.isDiceLetter (s.name.getLast s.named)

/-- The operation of a name and a number with nothing between them.  A dice letter at the end of
the name belongs to the number. -/
def fusedOperation (aliases : AliasTable) (s : Setting) : Operation :=
  if s.endsInDice then
    ⟨aliases.normalize (String.ofList s.name.dropLast), .set,
      .expression (String.ofList (s.name.getLast s.named :: s.numeral.digits))⟩
  else s.operation aliases

/-- The setting as an instruction with a colon. -/
def instruction (s : Setting) : Instruction :=
  ⟨s.name, s.named, s.isName, .colon, .number s.numeral, []⟩

theorem numeralValue_numeral (s : Setting) : numeralValue s.numeral.digits = s.value :=
  numeralValue_digitsOf s.value

theorem amountOf_numeral (s : Setting) : amountOf s.numeral.digits = .literal s.value := by
  rw [amountOf, if_pos (List.all_eq_true.2 s.numeral.isDigit), numeralValue_numeral]

theorem operation_instruction (aliases : AliasTable) (s : Setting) :
    s.instruction.operation aliases = s.operation aliases := by
  show (⟨_, _, .literal (numeralValue s.numeral.digits)⟩ : Operation) = _
  rw [numeralValue_numeral]
  rfl

end Setting

/-! ### A name with a number directly behind it -/

section Fused

variable (s : Setting)

/-- Behind the whole name the number is read. -/
theorem pairAfter_numeral :
    pairAfter s.name s.numeral.digits = some (⟨s.name, .set, .literal s.value⟩, []) := by
  have hterm := term?_append (.number s.numeral) follows_nil.toEndsTerm
  rw [Term.chars, List.append_nil] at hterm
  have hamount : amount? s.numeral.digits = some ((.set, .literal s.value), []) := by
    rcases hdigits : s.numeral.digits with _ | ⟨d, ds⟩
    · exact absurd hdigits (digitsOf_ne_nil s.value)
    · have hd : isDigit d = true := s.numeral.isDigit d (hdigits ▸ List.mem_cons_self)
      have hvalue := s.amountOf_numeral
      rw [hdigits] at hterm hvalue
      simp only [amount?, kindOf?_eq_none (not_mem_marks_of_isDigit hd), hterm, Option.map_some,
        hvalue]
  have hempty : s.name.isEmpty = false := List.isEmpty_eq_false_iff.2 s.named
  rw [pairAfter.eq_def, hempty]
  simp only [Bool.false_eq_true, if_false, hamount]

/-- Before the last letter of the name, that letter is read with the number if it is a dice letter;
but a name has to have a letter before it. -/
theorem pairAfter_last {front : List Char} {c : Char} (hname : front ++ [c] = s.name) :
    pairAfter front (c :: s.numeral.digits) =
      if !front.isEmpty && Dice.isDiceLetter c then
        some (⟨front, .set, .expression (String.ofList (c :: s.numeral.digits))⟩, [])
      else some (⟨s.name, .set, .literal s.value⟩, []) := by
  have hc : isNameChar c = true :=
    s.isName c (hname ▸ List.mem_append_right front List.mem_cons_self)
  have hdigit := isDigit_eq_false_of_isNameChar hc
  have hkind := kindOf?_eq_none (not_mem_marks_of_isNameChar hc)
  have htake : (c :: s.numeral.digits).takeWhile isDigit = [] :=
    List.takeWhile_cons_of_neg (ne_true_of_eq_false hdigit)
  have hgoesOn : (if isNameChar c then pairAfter (front ++ [c]) s.numeral.digits else none) =
      some (⟨s.name, .set, .literal s.value⟩, []) := by
    rw [if_pos hc, hname, pairAfter_numeral]
  rw [pairAfter]
  cases hfront : front.isEmpty with
  | true =>
    simp only [if_true, Bool.not_true, Bool.false_and, Bool.false_eq_true, if_false]
    exact hgoesOn
  | false =>
    cases hletter : Dice.isDiceLetter c with
    | true =>
      have hfaces := faces?_append hletter s.numeral follows_nil.digit
      rw [List.append_nil] at hfaces
      have hamount : amountOf (c :: s.numeral.digits) =
          .expression (String.ofList (c :: s.numeral.digits)) := by
        rw [amountOf, List.all_cons, hdigit, Bool.false_and, if_neg Bool.false_ne_true]
      simp only [Bool.false_eq_true, if_false, amount?, hkind, term?, htake, List.isEmpty_nil,
        if_true, hfaces, Option.map_some, hamount, Bool.not_false, Bool.and_self]
    | false =>
      have hfaces : faces? (c :: s.numeral.digits) = none := by
        simp only [faces?, hletter, Bool.false_and, Bool.false_eq_true, if_false]
      simp only [Bool.false_eq_true, if_false, amount?, hkind, term?, htake, List.isEmpty_nil,
        if_true, hfaces, Option.map_none, Bool.not_false, Bool.and_false]
      exact hgoesOn

/-- **A name with a number directly behind it is one pair**; a dice letter at the end of a longer
name belongs to the number. -/
theorem readPairs_fused (aliases : AliasTable) :
    readPairs aliases s.fused = [s.fusedOperation aliases] := by
  have hname : s.name.dropLast ++ [s.name.getLast s.named] = s.name :=
    List.dropLast_append_getLast s.named
  have hfront : ∀ d ∈ s.name.dropLast, isNameChar d = true :=
    fun d hd => s.isName d ((List.dropLast_sublist _).subset hd)
  have hlast : isNameChar (s.name.getLast s.named) = true := s.isName _ (List.getLast_mem s.named)
  have hpair : pair? s.fused =
      pairAfter s.name.dropLast (s.name.getLast s.named :: s.numeral.digits) := by
    have hhead : ∀ d ∈ (s.name.getLast s.named :: s.numeral.digits).head?, isDigit d = false := by
      intro d hd
      cases hd
      exact isDigit_eq_false_of_isNameChar hlast
    have hskip := pairAfter_name [] hfront hhead
    rw [← List.singleton_append, ← List.append_assoc, hname, List.nil_append] at hskip
    exact hskip
  have hlong : (!s.name.dropLast.isEmpty && Dice.isDiceLetter (s.name.getLast s.named)) =
      s.endsInDice := by
    rw [Setting.endsInDice]
    congr 1
    rw [Bool.eq_iff_iff, Bool.not_eq_true', List.isEmpty_eq_false_iff, ← List.length_pos_iff,
      List.length_dropLast, decide_eq_true_eq]
    omega
  rw [pairAfter_last s hname, hlong] at hpair
  rw [Setting.fusedOperation]
  cases hdice : s.endsInDice with
  | true =>
    rw [hdice, if_pos rfl] at hpair
    rw [readPairs, pairs?_of_pair? hpair, pairs?]
    rfl
  | false =>
    rw [hdice, if_neg Bool.false_ne_true] at hpair
    rw [readPairs, pairs?_of_pair? hpair, pairs?]
    rfl

end Fused

/-! ### Texts of settings -/

/-- Settings in a spelling, with blanks between them. -/
def spacedOut (write : Setting → List Char) (first : Setting) (more : List (Blanks × Setting)) :
    List Char :=
  write first ++ more.flatMap fun p => p.1.chars ++ write p.2

theorem words_blanks_append {bs : List Char} (h : ∀ b ∈ bs, isBlank b = true)
    (after : List Char) : words (bs ++ after) = words after := by
  induction bs with
  | nil => rfl
  | cons b bs ih =>
    rw [List.forall_mem_cons] at h
    rw [List.cons_append, ← ih h.2]
    exact words_append_cons h.1 [] _

theorem words_append_blanks (blanks : Blanks) (before after : List Char) :
    words (before ++ (blanks.chars ++ after)) = words before ++ words after := by
  rcases hchars : blanks.chars with _ | ⟨b, bs⟩
  · exact absurd hchars blanks.nonempty
  · have h := hchars ▸ blanks.isBlank
    rw [List.forall_mem_cons] at h
    rw [List.cons_append, words_append_cons h.1, words_blanks_append h.2]

theorem words_spacedOut (write : Setting → List Char) (first : Setting)
    (more : List (Blanks × Setting)) :
    words (spacedOut write first more) =
      (first :: more.map Prod.snd).flatMap fun s => words (write s) := by
  induction more generalizing first with
  | nil =>
    rw [spacedOut, List.flatMap_nil, List.append_nil, List.map_nil, List.flatMap_singleton]
  | cons p more ih =>
    have htext : spacedOut write first (p :: more) =
        write first ++ (p.1.chars ++ spacedOut write p.2 more) := by
      rw [spacedOut, List.flatMap_cons, List.append_assoc]
      rfl
    rw [htext, words_append_blanks, ih, List.map_cons, List.flatMap_cons]
    rfl

theorem no_bar_of_not_mem_marks {c : Char} (h : c ∉ marks) : c ≠ '|' ∧ c ≠ '-' := by
  refine ⟨?_, ne_dash_of_not_mem_marks h⟩
  rintro rfl
  exact h (by decide)

theorem no_bar_of_isBlank {c : Char} (h : isBlank c = true) : c ≠ '|' ∧ c ≠ '-' := by
  refine ⟨?_, ?_⟩
  · rintro rfl
    exact absurd h (by decide)
  · rintro rfl
    exact absurd h (by decide)

section Spellings

variable (aliases : AliasTable)

/-- Settings are read one by one if each of them is read apart from what follows. -/
theorem readDirective_spacedOut {write : Setting → List Char} {op : Setting → Operation}
    (hchars : ∀ s, ∀ c ∈ write s, c ≠ '|' ∧ c ≠ '-')
    (hread : ∀ s ws, readWords aliases (words (write s) ++ ws) = op s :: readWords aliases ws)
    (first : Setting) (more : List (Blanks × Setting)) :
    readDirective aliases (String.ofList (spacedOut write first more)) =
      ⟨none, (first :: more.map Prod.snd).map op⟩ := by
  have hall : ∀ c ∈ spacedOut write first more, c ≠ '|' ∧ c ≠ '-' := by
    intro c hc
    rcases List.mem_append.1 hc with hc | hc
    · exact hchars first c hc
    · obtain ⟨⟨blanks, s⟩, -, hc⟩ := List.mem_flatMap.1 hc
      rcases List.mem_append.1 hc with hc | hc
      · exact no_bar_of_isBlank (blanks.isBlank c hc)
      · exact hchars s c hc
  have hwords : ∀ l : List Setting,
      readWords aliases (l.flatMap fun s => words (write s)) = l.map op := by
    intro l
    induction l with
    | nil => rfl
    | cons s l ih => rw [List.flatMap_cons, hread, ih, List.map_cons]
  rw [readDirective_eq aliases hall, words_spacedOut, hwords]

variable (s : Setting)

theorem no_bar_of_mem_name : ∀ c ∈ s.name, c ≠ '|' ∧ c ≠ '-' := fun c hc =>
  no_bar_of_not_mem_marks (not_mem_marks_of_isNameChar (s.isName c hc))

theorem no_bar_of_mem_numeral : ∀ c ∈ s.numeral.digits, c ≠ '|' ∧ c ≠ '-' := fun c hc =>
  no_bar_of_not_mem_marks (not_mem_marks_of_isDigit (s.numeral.isDigit c hc))

theorem isWordChar_of_mem_fused : ∀ c ∈ s.fused, IsWordChar c := by
  intro c hc
  rcases List.mem_append.1 hc with hc | hc
  · exact isWordChar_of_isNameChar (s.isName c hc)
  · exact isWordChar_of_isDigit (s.numeral.isDigit c hc)

theorem words_name : words s.name = [s.name] :=
  words_eq_singleton s.named fun c hc => isBlank_eq_false_of_isNameChar (s.isName c hc)

theorem words_numeral : words s.numeral.digits = [s.numeral.digits] :=
  words_eq_singleton (digitsOf_ne_nil s.value) fun c hc =>
    isBlank_eq_false_of_isDigit (s.numeral.isDigit c hc)

theorem integer?_numeral : integer? s.numeral.digits = some (s.value : Int) := by
  have hnumeral : (isNumeral s.numeral.digits && s.numeral.digits.all isDigit) = true := by
    rw [s.numeral.isNumeral, List.all_eq_true.2 s.numeral.isDigit]
    rfl
  unfold integer?
  split
  · next ds hdigits =>
    exact absurd (s.numeral.isDigit '-' (hdigits ▸ List.mem_cons_self)) (by decide)
  · next ds hdigits =>
    exact absurd (s.numeral.isDigit '+' (hdigits ▸ List.mem_cons_self)) (by decide)
  · rw [if_pos hnumeral, s.numeralValue_numeral]

theorem readWords_spaced (blanks : Blanks) (ws : List (List Char)) :
    readWords aliases (words (s.spaced blanks) ++ ws) =
      s.operation aliases :: readWords aliases ws := by
  have hchars : ∀ c ∈ s.name, IsWordChar c := fun c hc => isWordChar_of_isNameChar (s.isName c hc)
  have hname : isName s.name = true := by
    rw [isName, List.isEmpty_eq_false_iff.2 s.named, List.all_eq_true.2 s.isName]
    rfl
  rw [Setting.spaced, words_append_blanks, words_name, words_numeral, List.singleton_append,
    List.cons_append, List.singleton_append, readWords.eq_def]
  simp only [generated?_eq_none hchars, isCalculation_eq_false hchars, hname, integer?_numeral,
    Bool.false_eq_true, if_false, if_true]
  rfl

theorem readWords_colon (ws : List (List Char)) :
    readWords aliases (words s.colon ++ ws) = s.operation aliases :: readWords aliases ws := by
  have hchars : s.colon = [s.instruction].flatMap Instruction.chars := by
    rw [List.flatMap_singleton, Instruction.chars, Instruction.chain]
    show s.name ++ ':' :: s.numeral.digits = s.name ++ ':' :: (s.numeral.digits ++ [])
    rw [List.append_nil]
  have hne : [s.instruction] ≠ [] := List.cons_ne_nil _ _
  have hword := forall_mem_flatMap_chars [s.instruction]
  rw [hchars, words_word hword (flatMap_chars_ne_nil hne), List.singleton_append,
    readWords_cons aliases hword (isName_flatMap_chars hne), readPairs_flatMap_chars,
    List.map_singleton, s.operation_instruction, List.singleton_append]

theorem readWords_fused (ws : List (List Char)) :
    readWords aliases (words s.fused ++ ws) = s.fusedOperation aliases :: readWords aliases ws := by
  have hname : isName s.fused = false := by
    rcases hdigits : s.numeral.digits with _ | ⟨d, ds⟩
    · exact absurd hdigits (digitsOf_ne_nil s.value)
    · have hd : isNameChar d = false := by
        rw [Bool.eq_false_iff]
        intro hletter
        have hdigit := s.numeral.isDigit d (hdigits ▸ List.mem_cons_self)
        rw [isDigit_eq_false_of_isNameChar hletter] at hdigit
        cases hdigit
      rw [isName, Setting.fused, hdigits, List.all_append, List.all_cons, hd, Bool.false_and,
        Bool.and_false, Bool.and_false]
  have hword := isWordChar_of_mem_fused s
  have hne : s.fused ≠ [] := List.append_ne_nil_of_left_ne_nil s.named _
  rw [words_word hword hne, List.singleton_append, readWords_cons aliases hword hname,
    readPairs_fused, List.singleton_append]

theorem readDirective_fused (first : Setting) (more : List (Blanks × Setting)) :
    readDirective aliases (String.ofList (spacedOut Setting.fused first more)) =
      ⟨none, (first :: more.map Prod.snd).map (Setting.fusedOperation aliases)⟩ := by
  refine readDirective_spacedOut aliases ?_ (readWords_fused aliases) first more
  intro s c hc
  rw [Setting.fused, List.mem_append] at hc
  rcases hc with hc | hc
  · exact no_bar_of_mem_name s c hc
  · exact no_bar_of_mem_numeral s c hc

end Spellings

/-- **The three spellings are read the same, but for one exception.**  Spaced and with colons, each
setting sets its attribute to its number.  So it does without anything between name and number,
unless a name of two or more letters ends in a dice letter: that letter belongs to the number. -/
theorem readDirective_settings (aliases : AliasTable) (blanks : Blanks) (first : Setting)
    (more : List (Blanks × Setting)) :
    readDirective aliases (String.ofList (spacedOut (Setting.spaced blanks) first more)) =
        ⟨none, (first :: more.map Prod.snd).map (Setting.operation aliases)⟩ ∧
      readDirective aliases (String.ofList (spacedOut Setting.colon first more)) =
        ⟨none, (first :: more.map Prod.snd).map (Setting.operation aliases)⟩ ∧
      readDirective aliases (String.ofList (spacedOut Setting.fused first more)) =
        ⟨none, (first :: more.map Prod.snd).map (Setting.fusedOperation aliases)⟩ := by
  refine ⟨
    readDirective_spacedOut aliases ?_ (fun s => readWords_spaced aliases s blanks) first more,
    readDirective_spacedOut aliases ?_ (readWords_colon aliases) first more,
    readDirective_fused aliases first more⟩
  · intro s c hc
    rw [Setting.spaced, List.mem_append, List.mem_append] at hc
    rcases hc with hc | hc | hc
    · exact no_bar_of_mem_name s c hc
    · exact no_bar_of_isBlank (blanks.isBlank c hc)
    · exact no_bar_of_mem_numeral s c hc
  · intro s c hc
    rw [Setting.colon, List.mem_append, List.mem_cons] at hc
    rcases hc with hc | rfl | hc
    · exact no_bar_of_mem_name s c hc
    · decide
    · exact no_bar_of_mem_numeral s c hc

/-- A name that ends in a dice letter loses it if the number stands directly behind. -/
theorem readDirective_food :
    readDirective .builtIn "Food60" =
        ⟨none, [⟨AliasTable.builtIn.normalize "Foo", .set, .expression "d60"⟩]⟩ ∧
      readDirective .builtIn "Food60" ≠
        ⟨none, [⟨AliasTable.builtIn.normalize "Food", .set, .literal 60⟩]⟩ := by
  obtain ⟨food, hfood⟩ : ∃ s : Setting,
      s = ⟨['F', 'o', 'o', 'd'], by decide, List.all_eq_true.1 rfl, 60, by decide⟩ := ⟨_, rfl⟩
  have htext : String.ofList (spacedOut Setting.fused food []) = "Food60" := by
    subst hfood
    decide
  have hname : String.ofList food.name.dropLast = "Foo" := by
    subst hfood
    decide
  have hvalue : String.ofList (food.name.getLast food.named :: food.numeral.digits) = "d60" := by
    subst hfood
    decide
  have hdice : food.endsInDice = true := by
    subst hfood
    decide
  have hread := readDirective_fused .builtIn food []
  rw [htext, List.map_nil, List.map_singleton, Setting.fusedOperation, if_pos hdice, hname,
    hvalue] at hread
  refine ⟨hread, ?_⟩
  rw [hread]
  intro heq
  exact absurd (congrArg (fun d => d.operations.map Operation.amount) heq) (by decide)

end Tabletop.Attribute
