import Tabletop.Proofs.Pool.Reading

/-!
# Operands side by side

The values of a card are filled in as text.  Where two spellings, or a spelling and a number, stand
side by side without an operator, the digits of the one meet the digits of the other, and what is
rolled has no trace of where the one ended: the two are read as one numeral.  A text of nothing but
such operands gives a pool with as many dice as all their digits write together.

Only two things end such a run: a negative value, of which the minus is read as an operator, and the
limit of nine digits, beyond which the text is refused.

## Main definitions

* `Part`, `readParts`, `filledIn` — a text as the values that are filled in and the characters that
  stay, and the two put together.
* `Part.digits`, `joined` — the digits of a part, and those of a run of parts.
* `Neighbours` — a run of operands, of which none but the first has a minus.

## Main results

* `toList_filledIn` — what is rolled is made of the parts.
* `exists_numeral_of_neighbours`, `exists_minus_of_negative` — what becomes of operands that stand
  side by side.
* `readSpec_neighbours` — **operands side by side are read as one numeral**, or the text is refused.
* `neighbours_make_twelve` — a one and a two side by side make a pool of twelve dice.
-/

namespace Tabletop.Pool

open Text Attribute Dice

/-! ### Parts of a text -/

/-- A part of a text in which the values of a card have been filled in. -/
inductive Part where
  /-- A spelling was replaced by a value. -/
  | filled (value : Int)
  /-- Characters that stay. -/
  | kept (cs : List Char)
  deriving DecidableEq, Repr

namespace Part

/-- The text of a part. -/
def chars : Part → List Char
  | filled v => (intText v).toList
  | kept cs => cs

/-- The minus of a negative value. -/
def sign : Part → List Char
  | filled v => if v < 0 then ['-'] else []
  | kept _ => []

/-- A part without the minus of a negative value. -/
def digits : Part → List Char
  | filled v => digitsOf v.natAbs
  | kept cs => cs

/-- Whether a part is an operand: a value, or digits that stay. -/
def isOperand : Part → Bool
  | filled _ => true
  | kept cs => !cs.isEmpty && cs.all isDigit

theorem chars_eq (p : Part) : p.chars = p.sign ++ p.digits := by
  cases p with
  | filled v =>
    cases v with
    | ofNat n => exact toList_intText_natCast n
    | negSucc n =>
      rw [sign, if_pos (Int.negSucc_lt_zero n)]
      exact toList_intText_negSucc n
  | kept cs => rfl

theorem isDigit_of_mem_digits {p : Part} (h : p.isOperand = true) {c : Char} (hc : c ∈ p.digits) :
    isDigit c = true := by
  cases p with
  | filled v => exact isDigit_of_mem_digitsOf hc
  | kept cs =>
    rw [isOperand, Bool.and_eq_true, List.all_eq_true] at h
    exact h.2 c hc

theorem digits_ne_nil {p : Part} (h : p.isOperand = true) : p.digits ≠ [] := by
  cases p with
  | filled v => exact digitsOf_ne_nil v.natAbs
  | kept cs =>
    rw [isOperand, Bool.and_eq_true, Bool.not_eq_true', List.isEmpty_eq_false_iff] at h
    exact h.1

end Part

/-- What becomes of a spelling: its value, or itself if its folding is no known one. -/
def partOf (values : InsertionMap String Int) (found : List Char) : Part :=
  match values.get? (casefold (String.ofList found)) with
  | some v => .filled v
  | none => .kept found

theorem chars_partOf (values : InsertionMap String Int) (found : List Char) :
    (partOf values found).chars = replacement values found := by
  unfold partOf replacement
  rcases values.get? (casefold (String.ofList found)) with _ | v
  · rfl
  · rfl

/-- A spelling with characters takes some of the text. -/
theorem length_lt_of_firstMatch? {names : List (List Char)} {cs found rest : List Char}
    (h : firstMatch? (names.filter fun name => !name.isEmpty) cs = some (found, rest)) :
    rest.length < cs.length := by
  obtain ⟨name, hname, hmatch⟩ := List.exists_of_findSome?_eq_some h
  have hne : name ≠ [] := by
    rintro rfl
    cases (List.mem_filter.1 hname).2
  have hlength := matchSpelling?_length hmatch
  have hpos := List.length_pos_iff.2 hne
  omega

/-- The parts of a text, found as the values are filled in. -/
def parts (values : InsertionMap String Int) (names : List (List Char)) (cs : List Char) :
    List Part :=
  match _ : firstMatch? (names.filter fun name => !name.isEmpty) cs with
  | some (found, rest) => partOf values found :: parts values names rest
  | none =>
    let gap := if names.any List.isEmpty then [partOf values []] else []
    match cs with
    | [] => gap
    | c :: rest => gap ++ .kept [c] :: parts values names rest
termination_by cs.length
decreasing_by
  · next h => exact length_lt_of_firstMatch? h
  · exact Nat.lt_succ_self _

section Parts

variable {values : InsertionMap String Int} {names : List (List Char)} {cs found rest : List Char}

/-- **The values are filled in part by part.** -/
theorem flatMap_chars_parts (values : InsertionMap String Int) (names : List (List Char))
    (cs : List Char) :
    (parts values names cs).flatMap Part.chars = substituteChars values names cs := by
  have hgap : (if names.any List.isEmpty then [partOf values []] else []).flatMap Part.chars =
      if names.any List.isEmpty then replacement values [] else [] := by
    split
    · exact (List.flatMap_singleton _ _).trans (chars_partOf values [])
    · rfl
  fun_induction parts values names cs with
  | case1 cs found rest h ih =>
    rw [List.flatMap_cons, ih, chars_partOf, substituteChars.eq_def values names cs]
    split
    · next h' =>
      rw [h] at h'
      cases h'
      rfl
    · next h' =>
      rw [h] at h'
      cases h'
  | case2 gap h =>
    rw [substituteChars.eq_def]
    split
    · next h' =>
      rw [h] at h'
      cases h'
    · exact hgap
  | case3 gap c rest h ih =>
    rw [List.flatMap_append, List.flatMap_cons, ih, substituteChars.eq_def values names (c :: rest)]
    split
    · next h' =>
      rw [h] at h'
      cases h'
    · have hkept : gap.flatMap Part.chars =
          if names.any List.isEmpty then replacement values [] else [] := hgap
      rw [hkept]
      rfl

theorem parts_of_firstMatch? (hne : ∀ name ∈ names, name ≠ [])
    (h : firstMatch? names cs = some (found, rest)) :
    parts values names cs = partOf values found :: parts values names rest := by
  rw [← filter_of_ne_nil hne] at h
  rw [parts.eq_def]
  split
  · next h' =>
    rw [h] at h'
    cases h'
    rfl
  · next h' =>
    rw [h] at h'
    cases h'

theorem parts_of_none (hne : ∀ name ∈ names, name ≠ []) {c : Char}
    (h : firstMatch? names (c :: rest) = none) :
    parts values names (c :: rest) = .kept [c] :: parts values names rest := by
  rw [← filter_of_ne_nil hne] at h
  rw [parts.eq_def]
  split
  · next h' =>
    rw [h] at h'
    cases h'
  · simp only [any_isEmpty_of_ne_nil hne, Bool.false_eq_true, if_false, List.nil_append]

theorem parts_nil (hne : ∀ name ∈ names, name ≠ []) : parts values names [] = [] := by
  rw [parts.eq_def]
  split
  · next h =>
    have hlength := length_lt_of_firstMatch? h
    cases hlength
  · simp only [any_isEmpty_of_ne_nil hne, Bool.false_eq_true, if_false]

/-- A spelling is found if each of the others does not match or takes the same characters. -/
theorem firstMatch?_longestFirst {keys : List String} {r : List Char × List Char}
    (hall : ∀ k ∈ keys, matchSpelling? k.toList cs = none ∨ matchSpelling? k.toList cs = some r)
    (hsome : ∃ k ∈ keys, matchSpelling? k.toList cs = some r) :
    firstMatch? (longestFirst keys) cs = some r := by
  rcases hfirst : firstMatch? (longestFirst keys) cs with _ | r'
  · obtain ⟨k, hk, hmatch⟩ := hsome
    have hnone := List.findSome?_eq_none_iff.1 hfirst _ (mem_longestFirst.2 ⟨k, hk, rfl⟩)
    rw [hmatch] at hnone
    cases hnone
  · obtain ⟨name, hname, hmatch⟩ := List.exists_of_findSome?_eq_some hfirst
    obtain ⟨k, hk, rfl⟩ := mem_longestFirst.1 hname
    rcases hall k hk with hnone | hsame
    · rw [hmatch] at hnone
      cases hnone
    · rw [← hmatch, hsame]

end Parts

/-- A text as the values of a card that are filled in and the characters that stay. -/
def readParts (aliases : AliasTable) (attributes : List (String × Int)) (text : String) :
    List Part :=
  let values := spellings aliases attributes
  parts values (longestFirst values.keys) (dropBlanks text.toList)

/-- The text that is rolled: the values are filled in, and the blanks are gone. -/
def filledIn (aliases : AliasTable) (attributes : List (String × Int)) (text : String) : String :=
  substitute aliases attributes (String.ofList (dropBlanks text.toList))

/-- **What is rolled is made of the parts.** -/
theorem toList_filledIn (aliases : AliasTable) (attributes : List (String × Int)) (text : String) :
    (filledIn aliases attributes text).toList =
      (readParts aliases attributes text).flatMap Part.chars := by
  simp only [filledIn, substitute, readParts, flatMap_chars_parts, String.toList_ofList]

/-! ### Runs of operands -/

/-- Operands that stand side by side: values, and digits that stay.  None but the first has a
minus. -/
structure Neighbours (run : List Part) : Prop where
  ne_nil : run ≠ []
  operands : ∀ p ∈ run, p.isOperand = true
  unsigned : ∀ p ∈ run.tail, p.sign = []

/-- The digits of a run of operands. -/
def joined (run : List Part) : List Char := run.flatMap Part.digits

namespace Neighbours

variable {run : List Part} (h : Neighbours run)
include h

theorem isDigit_of_mem_joined {c : Char} (hc : c ∈ joined run) : isDigit c = true := by
  obtain ⟨p, hp, hc⟩ := List.mem_flatMap.1 hc
  exact Part.isDigit_of_mem_digits (h.operands p hp) hc

theorem joined_ne_nil : joined run ≠ [] := by
  obtain ⟨p, hp⟩ := List.exists_mem_of_ne_nil run h.ne_nil
  intro hnil
  exact Part.digits_ne_nil (h.operands p hp) (List.flatMap_eq_nil_iff.1 hnil p hp)

/-- **Nothing stands between the digits of operands side by side.** -/
theorem flatMap_chars : run.flatMap Part.chars = (run.head h.ne_nil).sign ++ joined run := by
  rcases run with _ | ⟨first, more⟩
  · exact absurd rfl h.ne_nil
  have hmore : more.flatMap Part.chars = more.flatMap Part.digits := by
    refine List.flatMap_congr fun p hp => ?_
    rw [p.chars_eq, h.unsigned p hp, List.nil_append]
  rw [List.head_cons, joined, List.flatMap_cons, List.flatMap_cons, hmore, first.chars_eq,
    List.append_assoc]

end Neighbours

/-! ### Pools -/

section Pools

variable {aliases : AliasTable} {attributes : List (String × Int)} {text : String}
  {before run after : List Part}

/-- A text that gives a pool has been read as tokens. -/
theorem tokens_of_readSpec (hne : dropBlanks text.toList ≠ [])
    (hshort : shortForm? (dropBlanks text.toList) = none) {supply supply' : Supply} {spec : Spec}
    (h : readSpec .evaluator aliases attributes text supply = (.ok spec, supply')) :
    ∃ ts, tokens (filledIn aliases attributes text) = .ok ts := by
  rw [readSpec_of_long hne hshort rfl] at h
  split at h
  · cases h
  split at h
  · next hroll =>
    obtain ⟨ts, t, hevaluates, -⟩ := Evaluates.of_roll hroll
    exact ⟨ts, hevaluates.tokens_eq⟩
  · cases h

section Tokens

variable (hparts : readParts aliases attributes text = before ++ (run ++ after)) {ts : List Token}
  (htokens : tokens (filledIn aliases attributes text) = .ok ts)
include hparts htokens

/-- The digits of operands side by side are part of one numeral of what is rolled. -/
theorem exists_numeral_of_neighbours (hrun : Neighbours run) :
    ∃ t ∈ ts, ∃ ds ∈ t.numerals, joined run <:+: ds ∧ ds.length ≤ maxDigits := by
  have hchars : (filledIn aliases attributes text).toList =
      (before.flatMap Part.chars ++ (run.head hrun.ne_nil).sign) ++
        (joined run ++ after.flatMap Part.chars) := by
    rw [toList_filledIn, hparts, List.flatMap_append, List.flatMap_append, hrun.flatMap_chars]
    simp only [List.append_assoc]
  exact exists_numeral_of_tokens htokens hchars hrun.joined_ne_nil
    fun _ => hrun.isDigit_of_mem_joined

/-- The minus of a negative value is read as an operator, whatever stands before it. -/
theorem exists_minus_of_negative {v : Int} (hv : v < 0) {rest : List Part}
    (hafter : after = .filled v :: rest) :
    ∃ ts₁ ts₂, ts = ts₁ ++ .sign .minus :: ts₂ ∧
      Spells ((before ++ run).flatMap Part.chars) ts₁ ∧
      Spells (digitsOf v.natAbs ++ rest.flatMap Part.chars) ts₂ := by
  have hchars : (filledIn aliases attributes text).toList =
      (before ++ run).flatMap Part.chars ++
        '-' :: (digitsOf v.natAbs ++ rest.flatMap Part.chars) := by
    rw [toList_filledIn, hparts, hafter, ← List.append_assoc, List.flatMap_append,
      List.flatMap_cons, Part.chars_eq, Part.sign, if_pos hv]
    rfl
  exact spells_of_tokens_symbol (Token.ofChar?_sign .minus) htokens hchars

end Tokens

/-- **Operands side by side are read as one numeral, or the text is refused.**  Take any card and
any text that is not of the short form, and a run of operands side by side in it: spellings of the
card and digits, with no operator between them.  If the text gives a pool, the digits of all of them
together are part of one numeral of what is rolled; and if a negative value comes next, its minus is
read as an operator between what stands before it and what follows.  If the digits are more than
nine, the text is refused.  If there is nothing else in the text and no value is negative, the pool
has as many dice as these digits write, and the text is refused only if there are more than nine of
them or if that number is out of bounds. -/
theorem readSpec_neighbours (hne : dropBlanks text.toList ≠ [])
    (hshort : shortForm? (dropBlanks text.toList) = none) (hrun : Neighbours run)
    (hparts : readParts aliases attributes text = before ++ (run ++ after)) (supply : Supply) :
    (∀ spec supply', readSpec .evaluator aliases attributes text supply = (.ok spec, supply') →
        ∃ ts, tokens (filledIn aliases attributes text) = .ok ts ∧
          (∃ t ∈ ts, ∃ ds ∈ t.numerals, joined run <:+: ds ∧ ds.length ≤ maxDigits) ∧
          ∀ v rest, after = .filled v :: rest → v < 0 →
            ∃ ts₁ ts₂, ts = ts₁ ++ .sign .minus :: ts₂ ∧
              Spells ((before ++ run).flatMap Part.chars) ts₁ ∧
              Spells (digitsOf v.natAbs ++ rest.flatMap Part.chars) ts₂) ∧
      (maxDigits < (joined run).length →
        ∃ e supply', readSpec .evaluator aliases attributes text supply = (.error e, supply')) ∧
      (before = [] → after = [] → (∀ p ∈ run, p.sign = []) →
        readSpec .evaluator aliases attributes text supply =
          (if (joined run).length ≤ maxDigits then
              Spec.make (numeralValue (joined run)) successFrom
            else .error (.format (.poolUnrollable text .longNumeral)), supply)) := by
  refine ⟨?_, ?_, ?_⟩
  · intro spec supply' hread
    obtain ⟨ts, htokens⟩ := tokens_of_readSpec hne hshort hread
    refine ⟨ts, htokens, exists_numeral_of_neighbours hparts htokens hrun, ?_⟩
    exact fun v rest hafter hv => exists_minus_of_negative hparts htokens hv hafter
  · intro hlong
    rcases hread : readSpec .evaluator aliases attributes text supply with ⟨e | spec, supply'⟩
    · exact ⟨e, supply', rfl⟩
    · -- A text that gives a pool would hold the digits in a numeral that fits.
      obtain ⟨ts, htokens⟩ := tokens_of_readSpec hne hshort hread
      obtain ⟨t, -, ds, -, hinfix, hlength⟩ := exists_numeral_of_neighbours hparts htokens hrun
      have hle := hinfix.length_le
      omega
  · rintro rfl rfl hunsigned
    have hfilled : substitute aliases attributes (String.ofList (dropBlanks text.toList)) =
        String.ofList (joined run) := by
      rw [← filledIn, ← String.toList_inj, toList_filledIn, hparts, List.nil_append,
        List.append_nil, hrun.flatMap_chars, hunsigned _ (List.head_mem hrun.ne_nil),
        List.nil_append, String.toList_ofList]
    exact readSpec_digits hne hshort hfilled hrun.joined_ne_nil
      (fun _ => hrun.isDigit_of_mem_joined) supply

end Pools

/-! ### Two attributes -/

/-- A strength of one and a dexterity of two. -/
def weakAndSlow : List (String × Int) := [("力量", 1), ("敏捷", 2)]

/-- The two values under all their spellings. -/
def sixSpellings : InsertionMap String Int where
  toList := [("力量", 1), ("str", 1), ("strength", 1), ("敏捷", 2), ("dex", 2), ("dexterity", 2)]
  distinct := by decide

theorem spellings_weakAndSlow : spellings .builtIn weakAndSlow = sixSpellings := by
  apply InsertionMap.ext
  rw [builtIn_eq]
  decide +kernel

theorem ne_nil_of_sixSpellings : ∀ name ∈ longestFirst sixSpellings.keys, name ≠ [] := by
  have hkeys : ∀ k ∈ sixSpellings.keys, k.toList ≠ [] := by decide
  intro name hname
  obtain ⟨k, hk, rfl⟩ := mem_longestFirst.1 hname
  exact hkeys k hk

theorem parts_sixSpellings_nil : parts sixSpellings (longestFirst sixSpellings.keys) [] = [] :=
  parts_nil ne_nil_of_sixSpellings

/-- Two attributes side by side. -/
theorem readParts_two :
    readParts .builtIn weakAndSlow "力量敏捷" = [.filled 1, .filled 2] := by
  have hstrength : firstMatch? (longestFirst sixSpellings.keys) "力量敏捷".toList =
      some (['力', '量'], ['敏', '捷']) :=
    firstMatch?_longestFirst (by decide) (by decide)
  have hdexterity : firstMatch? (longestFirst sixSpellings.keys) ['敏', '捷'] =
      some (['敏', '捷'], []) :=
    firstMatch?_longestFirst (by decide) (by decide)
  have hvalues : partOf sixSpellings ['力', '量'] = .filled 1 ∧
      partOf sixSpellings ['敏', '捷'] = .filled 2 := by
    decide +kernel
  have hblanks : dropBlanks "力量敏捷".toList = "力量敏捷".toList := by decide
  rw [readParts, spellings_weakAndSlow, hblanks,
    parts_of_firstMatch? ne_nil_of_sixSpellings hstrength,
    parts_of_firstMatch? ne_nil_of_sixSpellings hdexterity, parts_sixSpellings_nil, hvalues.1,
    hvalues.2]

/-- A number and an attribute side by side. -/
theorem readParts_number :
    readParts .builtIn weakAndSlow "2力量" = [.kept ['2'], .filled 1] := by
  have htwo : firstMatch? (longestFirst sixSpellings.keys) ['2', '力', '量'] = none := by
    have hkeys : ∀ k ∈ sixSpellings.keys, matchSpelling? k.toList ['2', '力', '量'] = none := by
      decide
    apply firstMatch?_eq_none
    intro name hname
    obtain ⟨k, hk, rfl⟩ := mem_longestFirst.1 hname
    exact hkeys k hk
  have hstrength : firstMatch? (longestFirst sixSpellings.keys) ['力', '量'] =
      some (['力', '量'], []) :=
    firstMatch?_longestFirst (by decide) (by decide)
  have hvalue : partOf sixSpellings ['力', '量'] = .filled 1 := by decide +kernel
  have hblanks : dropBlanks "2力量".toList = ['2', '力', '量'] := by decide
  rw [readParts, spellings_weakAndSlow, hblanks, parts_of_none ne_nil_of_sixSpellings htwo,
    parts_of_firstMatch? ne_nil_of_sixSpellings hstrength, parts_sixSpellings_nil, hvalue]

/-- A two and a strength of one side by side are read as twenty-one. -/
theorem readSpec_neighbours_number :
    ∃ spec, readSpec .evaluator .builtIn weakAndSlow "2力量" (.ofList []) = (.ok spec, .ofList []) ∧
      spec.count = 21 := by
  have hrun : Neighbours [.kept ['2'], .filled 1] :=
    ⟨List.cons_ne_nil _ _, by decide, by decide⟩
  have hparts : readParts .builtIn weakAndSlow "2力量" =
      [] ++ ([.kept ['2'], .filled 1] ++ []) := readParts_number
  exact ⟨⟨21, 8, by decide, by decide⟩,
    (readSpec_neighbours (by decide) (by decide) hrun hparts (.ofList [])).2.2 rfl rfl (by decide),
    rfl⟩

/-- **Two spellings side by side give a pool.**  A strength of one and a dexterity of two make
twelve dice. -/
theorem neighbours_make_twelve :
    readParts .builtIn weakAndSlow "力量敏捷" = [.filled 1, .filled 2] ∧
      shortForm? (dropBlanks "力量敏捷".toList) = none ∧
      ∃ spec, readSpec .evaluator .builtIn weakAndSlow "力量敏捷" (.ofList []) =
          (.ok spec, .ofList []) ∧ spec.count = 12 := by
  have hshort : shortForm? (dropBlanks "力量敏捷".toList) = none := by decide
  have hfilled : substitute .builtIn weakAndSlow (String.ofList (dropBlanks "力量敏捷".toList)) =
      String.ofList ['1', '2'] := by
    rw [← filledIn, ← String.toList_inj, toList_filledIn, readParts_two]
    decide
  have hdigits : ∀ c ∈ ['1', '2'], isDigit c = true := List.all_eq_true.1 (by decide)
  have hread := readSpec_digits (by decide) hshort hfilled (List.cons_ne_nil _ _) hdigits
    (.ofList [])
  exact ⟨readParts_two, hshort, ⟨12, 8, by decide, by decide⟩, hread, rfl⟩

end Tabletop.Pool
