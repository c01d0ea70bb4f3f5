import Tabletop.Text.CharRange

/-!
# Blanks

Blanks separate the words of a text and are dropped at its ends.  Any separator of the Unicode
tables counts, and so do the control characters that move the print position or separate records.

## Main definitions

* `isBlank` — the class of blanks.
* `trim` — a text without the blanks at its ends.
* `splitWhere` — the fields between separators; `words` — the runs of characters between blanks.
* `dropBlanks` — a text without any blank.

## Main results

* `trim_trim` — a trimmed text has nothing more to trim.
* `splitWhere_append_cons`, `words_append_cons` — a separator divides the fields and the words.
-/

namespace Tabletop.Text

/-- The ranges of blanks. -/
def blankRanges : List CharRange :=
  [⟨0x09, 0x0D⟩, ⟨0x1C, 0x20⟩, ⟨0x85, 0x85⟩, ⟨0xA0, 0xA0⟩, ⟨0x1680, 0x1680⟩, ⟨0x2000, 0x200A⟩,
   ⟨0x2028, 0x2029⟩, ⟨0x202F, 0x202F⟩, ⟨0x205F, 0x205F⟩, ⟨0x3000, 0x3000⟩]

/-- Whether a character is a blank. -/
def isBlank (c : Char) : Bool := inRanges blankRanges c

/-! ### Trimming -/

/-- The characters without those of the class at either end. -/
def trimWhere (p : Char → Bool) (cs : List Char) : List Char :=
  (((cs.dropWhile p).reverse).dropWhile p).reverse

/-- The characters without the blanks at either end. -/
def trimChars (cs : List Char) : List Char := trimWhere isBlank cs

/-- The text without the blanks at either end. -/
def trim (s : String) : String := String.ofList (trimChars s.toList)

/-- There is nothing to trim. -/
@[simp] theorem trimWhere_nil (p : Char → Bool) : trimWhere p [] = [] := rfl

/-- The characters of a trimmed text. -/
@[simp] theorem toList_trim (s : String) : (trim s).toList = trimChars s.toList := by
  simp [trim]

/-- What is left at the start after dropping has nothing more to drop. -/
theorem dropWhile_eq_self_of_prefix {p : Char → Bool} {cs ds : List Char}
    (h : ds <+: cs.dropWhile p) : ds.dropWhile p = ds := by
  rcases ds with _ | ⟨d, ds⟩
  · rfl
  · obtain ⟨rest, hrest⟩ := h
    have hhead := List.head?_dropWhile_not p cs
    rw [← hrest] at hhead
    have hd : ¬p d = true := by simpa using hhead
    rw [List.dropWhile_cons, if_neg hd]

/-- A text that was trimmed has nothing more to trim. -/
theorem trimWhere_trimWhere (p : Char → Bool) (cs : List Char) :
    trimWhere p (trimWhere p cs) = trimWhere p cs := by
  have hstart : trimWhere p cs <+: cs.dropWhile p := by
    rw [trimWhere, ← List.reverse_suffix, List.reverse_reverse]
    exact List.dropWhile_suffix p
  have hend : (trimWhere p cs).reverse.dropWhile p = (trimWhere p cs).reverse := by
    rw [trimWhere, List.reverse_reverse]
    exact dropWhile_eq_self_of_prefix (List.prefix_refl _)
  rw [trimWhere, dropWhile_eq_self_of_prefix hstart, hend, List.reverse_reverse]

/-- A text that was trimmed has nothing more to trim. -/
@[simp] theorem trim_trim (s : String) : trim (trim s) = trim s := by
  rw [trim, toList_trim, trimChars, trimChars, trimWhere_trimWhere]
  rfl

/-- The characters that are no blanks. -/
def dropBlanks (cs : List Char) : List Char := cs.filter fun c => !isBlank c

/-! ### Fields and words -/

/-- The fields between the separators; there is one more field than separators. -/
def splitWhere (isSeparator : Char → Bool) : List Char → List (List Char)
  | [] => [[]]
  | c :: rest =>
    if isSeparator c then [] :: splitWhere isSeparator rest
    else
      match splitWhere isSeparator rest with
      | [] => [[c]]
      | field :: fields => (c :: field) :: fields

/-- A text without characters is one field. -/
@[simp] theorem splitWhere_nil (p : Char → Bool) : splitWhere p [] = [[]] := rfl

/-- A separator ends the field before it. -/
theorem splitWhere_cons_of_pos {p : Char → Bool} {c : Char} (h : p c = true) (rest : List Char) :
    splitWhere p (c :: rest) = [] :: splitWhere p rest := by
  simp [splitWhere, h]

/-- There is always a field. -/
theorem splitWhere_ne_nil (p : Char → Bool) (cs : List Char) : splitWhere p cs ≠ [] := by
  cases cs with
  | nil => simp
  | cons c rest =>
    by_cases hc : p c = true
    · rw [splitWhere_cons_of_pos hc]
      exact List.cons_ne_nil _ _
    · rw [splitWhere, if_neg hc]
      split
      · exact List.cons_ne_nil _ _
      · exact List.cons_ne_nil _ _

/-- A separator divides the fields. -/
theorem splitWhere_append_cons {p : Char → Bool} {c : Char} (hc : p c = true)
    (before after : List Char) :
    splitWhere p (before ++ c :: after) = splitWhere p before ++ splitWhere p after := by
  induction before with
  | nil => rw [List.nil_append, splitWhere_cons_of_pos hc, splitWhere_nil, List.singleton_append]
  | cons b before ih =>
    rw [List.cons_append]
    by_cases hb : p b = true
    · rw [splitWhere_cons_of_pos hb, splitWhere_cons_of_pos hb, ih, List.cons_append]
    · rw [splitWhere, if_neg hb, splitWhere, if_neg hb, ih]
      -- The first field before the separator gets the character on both sides.
      rcases hf : splitWhere p before with _ | ⟨field, fields⟩
      · exact absurd hf (splitWhere_ne_nil p before)
      · rfl

/-- A text without separators is one field. -/
theorem splitWhere_eq_singleton {p : Char → Bool} {cs : List Char} (h : ∀ c ∈ cs, p c = false) :
    splitWhere p cs = [cs] := by
  induction cs with
  | nil => rfl
  | cons c cs ih =>
    have hc : ¬p c = true := by
      rw [h c List.mem_cons_self]
      exact Bool.false_ne_true
    rw [splitWhere, if_neg hc, ih fun d hd => h d (List.mem_cons_of_mem c hd)]

/-- The longest runs of characters that are no blanks. -/
def words (cs : List Char) : List (List Char) :=
  (splitWhere isBlank cs).filter fun field => !field.isEmpty

/-- A text without characters has no words. -/
@[simp] theorem words_nil : words [] = [] := rfl

/-- A blank divides the words. -/
theorem words_append_cons {c : Char} (hc : isBlank c = true) (before after : List Char) :
    words (before ++ c :: after) = words before ++ words after := by
  rw [words, splitWhere_append_cons hc, List.filter_append]
  rfl

/-- A text with characters but without blanks is one word. -/
theorem words_eq_singleton {cs : List Char} (hne : cs ≠ []) (h : ∀ c ∈ cs, isBlank c = false) :
    words cs = [cs] := by
  rw [words, splitWhere_eq_singleton h]
  cases cs with
  | nil => exact absurd rfl hne
  | cons c cs => rfl

end Tabletop.Text
