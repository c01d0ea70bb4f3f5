import Mathlib.Algebra.GroupWithZero.Nat
import Mathlib.Data.List.TakeWhile
import Tabletop.Json.Reader
import Tabletop.Json.Writer

/-!
# The tokens of a written value

A JSON value that was written is cut into the tokens that it consists of.  A number ends where no
character of an atom follows, so the tokens of a value are the same whatever is written behind it.
An integer with too many digits is written all the same, but no token is made of it.

## Main definitions

* `IsShort` — an integer with no more digits than a JSON text may hold.
* `Value.IsPlain` — the values without floating-point numbers and repeated keys.
* `Value.isShort` — whether all integers of a value are short.
* `Value.tokens` — the tokens of a value.
* `Lexes` — a text is cut into given tokens or none, whatever follows it.

## Main results

* `atom?_toString` — the text of an integer is read as that integer, if it is short.
* `scan_writeText` — a text in quotes is read as that text.
* `lexes_chars` — **a written value is cut into its tokens**, if its integers are short.
-/

namespace Tabletop.Json

open Text

/-! ### Integers -/

/-- An integer with no more digits than a JSON text may hold. -/
def IsShort (n : Int) : Prop := (digitsOf n.natAbs).length ≤ maxWholeDigits

instance (n : Int) : Decidable (IsShort n) := inferInstanceAs (Decidable (_ ≤ _))

theorem isShort_iff {n : Int} : IsShort n ↔ n.natAbs < 10 ^ maxWholeDigits :=
  Nat.length_toDigits_le_iff (by decide) (by decide)

theorem IsShort.of_natAbs_le {n m : Int} (hm : IsShort m) (h : n.natAbs ≤ m.natAbs) :
    IsShort n :=
  isShort_iff.2 (Nat.lt_of_le_of_lt h (isShort_iff.1 hm))

theorem charIsDigit_of_mem_digitsOf {n : Nat} {c : Char} (h : c ∈ digitsOf n) :
    c.isDigit = true :=
  Nat.isDigit_of_mem_toDigits (by decide) (by decide) h

/-- The digits of a positive number do not start with a zero. -/
theorem digitsOf_head_ne_zero {n : Nat} (hn : 0 < n) :
    ∃ c cs, digitsOf n = c :: cs ∧ c ≠ '0' := by
  induction n using Nat.strongRecOn with
  | _ n ih =>
    rw [digitsOf_eq_if]
    by_cases hlt : n < 10
    · refine ⟨Nat.digitChar n, [], if_pos hlt, ?_⟩
      intro hzero
      have hval := digitValue?_digitChar hlt
      rw [hzero] at hval
      have hzero' : digitValue? '0' = some 0 := by decide
      rw [hzero', Option.some.injEq] at hval
      omega
    · -- The first digit is that of the tenth of the number.
      obtain ⟨c, cs, hcs, hc⟩ := ih (n / 10) (by omega) (by omega)
      refine ⟨c, cs ++ [Nat.digitChar (n % 10)], ?_, hc⟩
      rw [if_neg hlt, hcs, List.cons_append]

theorem isWhole_digitsOf (n : Nat) : isWhole (digitsOf n) = true := by
  rcases Nat.eq_zero_or_pos n with hn | hn
  · subst hn
    rfl
  · obtain ⟨c, cs, hcs, hc⟩ := digitsOf_head_ne_zero hn
    rw [hcs]
    unfold isWhole
    split
    · next h => cases h
    · rfl
    · next h => exact absurd (List.cons.inj h).1 hc
    · rfl

/-- The digits of a number are read as that number, unless they are too many. -/
theorem unsigned?_digitsOf (negative : Bool) (n : Nat) :
    unsigned? negative (digitsOf n) =
      if (digitsOf n).length ≤ maxWholeDigits then
        some (.int (if negative then -(n : Int) else n))
      else none := by
  have hall : ∀ c ∈ digitsOf n, c.isDigit = true := fun c hc => charIsDigit_of_mem_digitsOf hc
  have htake : (digitsOf n).takeWhile Char.isDigit = digitsOf n :=
    List.takeWhile_eq_self_iff.2 hall
  have hdrop : (digitsOf n).dropWhile Char.isDigit = [] := List.dropWhile_eq_nil_iff.2 hall
  simp only [unsigned?, htake, hdrop, isWhole_digitsOf, Bool.true_and, decide_eq_true_eq,
    numeralValue_digitsOf]

theorem digitsOf_eq_cons (n : Nat) :
    ∃ c cs, digitsOf n = c :: cs ∧ c.isDigit = true := by
  rcases hds : digitsOf n with _ | ⟨c, cs⟩
  · exact absurd hds (digitsOf_ne_nil n)
  · exact ⟨c, cs, rfl, charIsDigit_of_mem_digitsOf (hds ▸ List.mem_cons_self)⟩

/-- A text that starts with a digit, perhaps behind a minus, is no word. -/
theorem atom?_eq_number? {cs : List Char}
    (h : ∃ c rest, c.isDigit = true ∧ (cs = c :: rest ∨ cs = '-' :: c :: rest)) :
    atom? cs = number? cs := by
  have hword : ∀ w : List Char, w.head?.all (fun c => !c.isDigit && c != '-') = true →
      cs ≠ w := by
    rintro w hw rfl
    obtain ⟨c, rest, hc, rfl | rfl⟩ := h
    · rw [List.head?_cons, Option.all_some, hc] at hw
      cases hw
    · cases hw
  have hminus : cs ≠ "-Infinity".toList := by
    rintro rfl
    obtain ⟨c, rest, hc, h | h⟩ := h
    · rw [← (List.cons.inj h).1] at hc
      revert hc
      decide
    · rw [← (List.cons.inj (List.cons.inj h).2).1] at hc
      revert hc
      decide
  rw [atom?, if_neg (hword _ (by decide)), if_neg (hword _ (by decide)),
    if_neg (hword _ (by decide)), if_neg (hword _ (by decide)), if_neg (hword _ (by decide)),
    if_neg hminus]

/-- **The text of an integer is read as that integer**, unless it has too many digits. -/
theorem atom?_toString (n : Int) :
    atom? (toString n).toList = if IsShort n then some (.int n) else none := by
  cases n with
  | ofNat n =>
    have htext : (toString (Int.ofNat n)).toList = digitsOf n := toList_intText_natCast n
    obtain ⟨c, cs, hcs, hc⟩ := digitsOf_eq_cons n
    rw [htext, atom?_eq_number? ⟨c, cs, hc, Or.inl hcs⟩]
    have hne : c ≠ '-' := by
      rintro rfl
      revert hc
      decide
    have hnum : number? (digitsOf n) = unsigned? false (digitsOf n) := by
      rw [hcs]
      unfold number?
      split
      · next h => exact absurd (List.cons.inj h).1 hne
      · rfl
    exact hnum.trans (unsigned?_digitsOf false n)
  | negSucc n =>
    have htext : (toString (Int.negSucc n)).toList = '-' :: digitsOf (n + 1) :=
      toList_intText_negSucc n
    obtain ⟨c, cs, hcs, hc⟩ := digitsOf_eq_cons (n + 1)
    rw [htext, atom?_eq_number? ⟨c, cs, hc, Or.inr (by rw [hcs])⟩]
    exact unsigned?_digitsOf true (n + 1)

/-! ### Texts -/

/-- Four hexadecimal digits of a small number. -/
theorem hexDigits_four {n : Nat} (hn : n < 0x20) :
    hexDigits 4 n = ['0', '0', Nat.digitChar (n / 16), Nat.digitChar (n % 16)] := by
  have hdigits : Nat.toDigits 16 n =
      if n < 16 then [Nat.digitChar n]
      else Nat.toDigits 16 (n / 16) ++ [Nat.digitChar (n % 16)] := Nat.toDigits_eq_if (by decide)
  by_cases hlt : n < 16
  · rw [if_pos hlt] at hdigits
    have hdiv : n / 16 = 0 := by omega
    have hmod : n % 16 = n := by omega
    rw [hexDigits, hdigits, hdiv, hmod]
    rfl
  · have hone : n / 16 = 1 := by omega
    rw [if_neg hlt, hone] at hdigits
    rw [hexDigits, hdigits, hone]
    rfl

theorem hexValue?_digitChar {d : Nat} (hd : d < 16) : hexValue? (Nat.digitChar d) = some d := by
  have hall : ∀ d < 16, hexValue? (Nat.digitChar d) = some d := by decide
  exact hall d hd

/-- A character that completes no token leads on to what the next is part of. -/
theorem scan_cons_of_step {s s' : State} {c : Char} (h : step s c = some ([], s'))
    (rest : List Char) : scan s (c :: rest) = scan s' rest := by
  rw [scan_cons, h, Option.bind_some]
  simp only [List.nil_append, Option.map_id']

/-- A character that is read behind a backslash. -/
theorem scan_escaped (acc : List Char) {c d : Char} (hu : c ≠ 'u') (hd : escaped? c = some d)
    (rest : List Char) :
    scan (.inText acc) ('\\' :: c :: rest) = scan (.inText (d :: acc)) rest := by
  have hfirst : step (.inText acc) '\\' = some ([], .afterBackslash acc) := rfl
  have hsecond : step (.afterBackslash acc) c = some ([], .inText (d :: acc)) := by
    rw [step, if_neg hu, hd]
    rfl
  rw [scan_cons_of_step hfirst, scan_cons_of_step hsecond]

/-- One of the first three digits of a numeric escape. -/
theorem scan_hexDigit (acc : List Char) {count value d : Nat} (hcount : count ≠ 3) (hd : d < 16)
    (rest : List Char) :
    scan (.inCode acc none count value) (Nat.digitChar d :: rest) =
      scan (.inCode acc none (count + 1) (16 * value + d)) rest := by
  refine scan_cons_of_step ?_ rest
  rw [step, hexValue?_digitChar hd, Option.bind_some, if_neg hcount]

/-- The last digit of a numeric escape completes a code unit, here one that is no half of a
pair. -/
theorem scan_lastHexDigit (acc : List Char) {value d : Nat} (hd : d < 16)
    (hvalue : 16 * value + d < 0xD800) (rest : List Char) :
    scan (.inCode acc none 3 value) (Nat.digitChar d :: rest) =
      scan (.inText (Char.ofNat (16 * value + d) :: acc)) rest := by
  have hhigh : isHigh (16 * value + d) = false := by
    simp only [isHigh, Bool.and_eq_false_iff, decide_eq_false_iff_not]
    omega
  have hlow : isLow (16 * value + d) = false := by
    simp only [isLow, Bool.and_eq_false_iff, decide_eq_false_iff_not]
    omega
  refine scan_cons_of_step ?_ rest
  rw [step, hexValue?_digitChar hd, Option.bind_some, if_pos rfl]
  simp only [finishCode, hhigh, hlow, Bool.false_eq_true, if_false, Option.map_some]

/-- A control character is read from its numeric escape. -/
theorem scan_numericEscape (acc : List Char) {c : Char} (hc : c.toNat < 0x20)
    (rest : List Char) :
    scan (.inText acc) ('\\' :: 'u' :: hexDigits 4 c.toNat ++ rest) =
      scan (.inText (c :: acc)) rest := by
  have hfirst : step (.inText acc) '\\' = some ([], .afterBackslash acc) := rfl
  have hsecond : step (.afterBackslash acc) 'u' = some ([], .inCode acc none 0 0) := rfl
  have hzero : '0' = Nat.digitChar 0 := rfl
  rw [hexDigits_four hc, hzero, List.cons_append, List.cons_append, scan_cons_of_step hfirst,
    scan_cons_of_step hsecond]
  simp only [List.cons_append, List.nil_append]
  rw [scan_hexDigit acc (by omega) (by omega), scan_hexDigit acc (by omega) (by omega),
    scan_hexDigit acc (by omega) (by omega), scan_lastHexDigit acc (by omega) (by omega)]
  -- The two digits that are not zero make up the code of the character.
  have hcode : 16 * (16 * (16 * (16 * 0 + 0) + 0) + c.toNat / 16) + c.toNat % 16 = c.toNat := by
    omega
  rw [hcode, Char.ofNat_toNat]

/-- The characters that are written as a backslash with a letter or a mark. -/
def named : List Char := ['"', '\\', '\x08', '\x0c', '\n', '\r', '\t']

theorem escape_of_mem_named {c : Char} (h : c ∈ named) :
    ∃ d, d ≠ 'u' ∧ escaped? d = some c ∧ escape c = ['\\', d] := by
  simp only [named, List.mem_cons, List.not_mem_nil, or_false] at h
  rcases h with rfl | rfl | rfl | rfl | rfl | rfl | rfl
  all_goals exact ⟨_, by decide, by rfl, rfl⟩

theorem escape_of_not_mem_named {c : Char} (h : c ∉ named) :
    escape c = if c.toNat < 0x20 then '\\' :: 'u' :: hexDigits 4 c.toNat else [c] := by
  simp only [named, List.mem_cons, List.not_mem_nil, or_false, not_or] at h
  simp only [escape, h, if_false]

/-- **A character is read from the way in which it is written.** -/
theorem scan_escape (acc : List Char) (c : Char) (rest : List Char) :
    scan (.inText acc) (escape c ++ rest) = scan (.inText (c :: acc)) rest := by
  by_cases hnamed : c ∈ named
  · obtain ⟨d, hu, hd, hc⟩ := escape_of_mem_named hnamed
    rw [hc]
    exact scan_escaped acc hu hd rest
  · rw [escape_of_not_mem_named hnamed]
    split
    · next hcontrol => exact scan_numericEscape acc hcontrol rest
    · next hcontrol =>
      have hquote : c ≠ '"' := fun h => hnamed (h ▸ List.mem_cons_self)
      have hslash : c ≠ '\\' := fun h => hnamed (h ▸ List.mem_cons_of_mem _ List.mem_cons_self)
      refine scan_cons_of_step ?_ rest
      rw [step, if_neg hquote, if_neg hslash, if_neg hcontrol]

theorem scan_flatMap_escape (acc cs rest : List Char) :
    scan (.inText acc) (cs.flatMap escape ++ rest) = scan (.inText (cs.reverse ++ acc)) rest := by
  induction cs generalizing acc with
  | nil => rfl
  | cons c cs ih =>
    rw [List.flatMap_cons, List.append_assoc, scan_escape, ih, List.reverse_cons,
      List.append_assoc, List.singleton_append]

/-- **A text in quotes is read as that text.** -/
theorem scan_writeText (s : String) (rest : List Char) :
    scan .between (writeText s ++ rest) = (scan .between rest).map (.text s :: ·) := by
  have hopen : step .between '"' = some ([], .inText []) := rfl
  have hclose : step (.inText s.toList.reverse) '"' = some ([.text s], .between) := by
    rw [step, if_pos rfl, List.reverse_reverse, String.ofList_toList]
  simp only [writeText, List.cons_append, List.append_assoc, List.nil_append]
  rw [scan_cons_of_step hopen, scan_flatMap_escape, List.append_nil, scan_cons, hclose,
    Option.bind_some]
  rfl

/-! ### Atoms -/

/-- No atom goes on at the start of a text. -/
def EndsAtom (rest : List Char) : Prop := ∀ c ∈ rest.head?, isAtomChar c = false

theorem endsAtom_nil : EndsAtom [] := fun _ h => by cases h

theorem endsAtom_cons {c : Char} (h : isAtomChar c = false) (rest : List Char) :
    EndsAtom (c :: rest) := by
  intro d hd
  obtain rfl : c = d := Option.some.inj hd
  exact h

theorem scan_inAtom_append {cs : List Char} (h : ∀ c ∈ cs, isAtomChar c = true)
    (acc rest : List Char) :
    scan (.inAtom acc) (cs ++ rest) = scan (.inAtom (cs.reverse ++ acc)) rest := by
  induction cs generalizing acc with
  | nil => rfl
  | cons c cs ih =>
    have hstep : step (.inAtom acc) c = some ([], .inAtom (c :: acc)) := by
      rw [step, if_pos (h c List.mem_cons_self)]
    rw [List.cons_append, scan_cons_of_step hstep,
      ih (fun d hd => h d (List.mem_cons_of_mem c hd)), List.reverse_cons, List.append_assoc,
      List.singleton_append]

/-- An atom ends where none goes on. -/
theorem scan_inAtom_of_endsAtom (acc : List Char) {rest : List Char} (hrest : EndsAtom rest) :
    scan (.inAtom acc) rest =
      (atom? acc.reverse).bind fun v => (scan .between rest).map (.atom v :: ·) := by
  cases rest with
  | nil =>
    show (atom? acc.reverse).map _ = _
    rcases atom? acc.reverse with _ | v
    · rfl
    · rfl
  | cons c rest =>
    have hstep : step (.inAtom acc) c =
        (atom? acc.reverse).bind fun v => (start c).map fun r => (.atom v :: r.1, r.2) := by
      rw [step, if_neg (ne_true_of_eq_false (hrest c rfl))]
    rw [scan_cons, scan_cons, hstep]
    rcases atom? acc.reverse with _ | v
    · rfl
    · show ((start c).map _).bind _ = ((start c).bind _).map _
      rcases start c with _ | r
      · rfl
      · simp only [Option.map_some, Option.bind_some, Option.map_map]
        rfl

/-- A text is cut into the tokens, whatever is written behind it, unless an atom goes on there.  If
an integer in it is not `short`, reading comes to a halt. -/
def Lexes (cs : List Char) (short : Bool) (ts : List Token) : Prop :=
  ∀ rest, EndsAtom rest → scan .between (cs ++ rest) =
    if short then (scan .between rest).map (ts ++ ·) else none

theorem Lexes.nil : Lexes [] true [] := by
  intro rest _
  simp only [List.nil_append, Option.map_id', if_true]

section Lexes

variable {c : Char} {t : Token} {cs cs' : List Char} {short short' : Bool} {ts ts' : List Token}

/-- A bracket or a separator is a token of its own. -/
theorem Lexes.cons (hc : start c = some ([t], .between)) (h : Lexes cs short ts) :
    Lexes (c :: cs) short (t :: ts) := by
  intro rest hrest
  have hstep : step .between c = some ([t], .between) := hc
  rw [List.cons_append, scan_cons, hstep, Option.bind_some, h rest hrest]
  cases short with
  | true =>
    rw [if_pos rfl, if_pos rfl, Option.map_map]
    rfl
  | false => rfl

/-- Two texts are cut one after the other, unless an atom goes on from the first to the second. -/
theorem Lexes.append (h : Lexes cs short ts) (h' : Lexes cs' short' ts')
    (hends : ∀ rest, EndsAtom rest → EndsAtom (cs' ++ rest)) :
    Lexes (cs ++ cs') (short && short') (ts ++ ts') := by
  intro rest hrest
  rw [List.append_assoc, h _ (hends rest hrest), h' rest hrest]
  cases short with
  | true =>
    cases short' with
    | true =>
      simp only [if_true, Bool.and_self, Option.map_map, Function.comp_def, List.append_assoc]
    | false => rfl
  | false => rfl

theorem lexes_writeText (s : String) : Lexes (writeText s) true [.text s] :=
  fun rest _ => scan_writeText s rest

theorem lexes_atom {v : Value} (hc : start c = some ([], .inAtom [c]))
    (hcs : ∀ d ∈ cs, isAtomChar d = true)
    (hv : atom? (c :: cs) = if short then some v else none) :
    Lexes (c :: cs) short [.atom v] := by
  intro rest hrest
  have hstep : step .between c = some ([], .inAtom [c]) := hc
  have hreverse : (cs.reverse ++ [c]).reverse = c :: cs := by
    rw [List.reverse_append, List.reverse_reverse]
    rfl
  rw [List.cons_append, scan_cons_of_step hstep, scan_inAtom_append hcs,
    scan_inAtom_of_endsAtom _ hrest, hreverse, hv]
  cases short with
  | true => rfl
  | false => rfl

end Lexes

theorem start_of_isDigit {c : Char} (hc : c.isDigit = true) :
    start c = some ([], .inAtom [c]) := by
  have hne {d : Char} (hd : d.isDigit = false) : c ≠ d := by
    rintro rfl
    rw [hd] at hc
    cases hc
  have hspace : isSpace c = false := by
    simp only [isSpace, Bool.or_eq_false_iff, beq_eq_false_iff_ne]
    exact ⟨⟨⟨hne (by decide), hne (by decide)⟩, hne (by decide)⟩, hne (by decide)⟩
  have hatom : isAtomChar c = true := by
    simp only [isAtomChar, Char.isAlphanum, hc, Bool.or_true, Bool.true_or]
  simp only [start, hspace, hne (show '['.isDigit = false by decide),
    hne (show ']'.isDigit = false by decide), hne (show '\x7b'.isDigit = false by decide),
    hne (show '\x7d'.isDigit = false by decide), hne (show ':'.isDigit = false by decide),
    hne (show ','.isDigit = false by decide), hne (show '"'.isDigit = false by decide), hatom,
    Bool.false_eq_true, if_false, if_true]

theorem lexes_toString (n : Int) :
    Lexes (toString n).toList (decide (IsShort n)) [.atom (.int n)] := by
  have hatom : atom? (toString n).toList =
      if decide (IsShort n) = true then some (.int n) else none := by
    rw [atom?_toString]
    simp only [decide_eq_true_eq]
  have hdigit (m : Nat) : ∀ d ∈ digitsOf m, isAtomChar d = true := by
    intro d hd
    simp only [isAtomChar, Char.isAlphanum, charIsDigit_of_mem_digitsOf hd, Bool.or_true,
      Bool.true_or]
  cases n with
  | ofNat n =>
    have htext : (toString (Int.ofNat n)).toList = digitsOf n := toList_intText_natCast n
    obtain ⟨c, cs, hcs, hc⟩ := digitsOf_eq_cons n
    rw [htext, hcs] at hatom ⊢
    exact lexes_atom (start_of_isDigit hc)
      (fun d hd => hdigit n d (hcs ▸ List.mem_cons_of_mem c hd)) hatom
  | negSucc n =>
    have htext : (toString (Int.negSucc n)).toList = '-' :: digitsOf (n + 1) :=
      toList_intText_negSucc n
    rw [htext] at hatom ⊢
    exact lexes_atom rfl (hdigit (n + 1)) hatom

/-! ### Values -/

mutual

/-- The values without floating-point numbers in which the keys of each object differ. -/
def Value.IsPlain : Value → Prop
  | .null => True
  | .bool _ => True
  | .int _ => True
  | .float _ => False
  | .string _ => True
  | .array items => ArePlain items
  | .object members => (members.map Prod.fst).Nodup ∧ HavePlain members

def ArePlain : List Value → Prop
  | [] => True
  | v :: vs => v.IsPlain ∧ ArePlain vs

def HavePlain : List (String × Value) → Prop
  | [] => True
  | (_, v) :: ms => v.IsPlain ∧ HavePlain ms

end

mutual

/-- Whether all integers of a value are short. -/
def Value.isShort : Value → Bool
  | .int n => decide (IsShort n)
  | .array items => areShort items
  | .object members => haveShort members
  | _ => true

def areShort : List Value → Bool
  | [] => true
  | v :: vs => v.isShort && areShort vs

def haveShort : List (String × Value) → Bool
  | [] => true
  | (_, v) :: ms => v.isShort && haveShort ms

end

mutual

/-- The tokens of a value. -/
def Value.tokens : Value → List Token
  | .array items => .openArray :: (itemTokens items ++ [.closeArray])
  | .object members => .openObject :: (memberTokens members ++ [.closeObject])
  | .string s => [.text s]
  | v => [.atom v]

def itemTokens : List Value → List Token
  | [] => []
  | v :: vs => v.tokens ++ moreItemTokens vs

def moreItemTokens : List Value → List Token
  | [] => []
  | v :: vs => .comma :: (v.tokens ++ moreItemTokens vs)

def memberTokens : List (String × Value) → List Token
  | [] => []
  | (k, v) :: ms => .text k :: .colon :: (v.tokens ++ moreMemberTokens ms)

def moreMemberTokens : List (String × Value) → List Token
  | [] => []
  | (k, v) :: ms => .comma :: .text k :: .colon :: (v.tokens ++ moreMemberTokens ms)

end

theorem endsAtom_moreItems (vs : List Value) {rest : List Char} (h : EndsAtom rest) :
    EndsAtom (moreItems vs ++ rest) := by
  cases vs with
  | nil => exact h
  | cons v vs => exact endsAtom_cons (by decide) _

theorem endsAtom_moreMembers (ms : List (String × Value)) {rest : List Char}
    (h : EndsAtom rest) : EndsAtom (moreMembers ms ++ rest) := by
  cases ms with
  | nil => exact h
  | cons m ms =>
    obtain ⟨k, v⟩ := m
    exact endsAtom_cons (by decide) _

/-- A key with its colon and its value is cut into the tokens of these. -/
theorem Lexes.member (k : String) {cs : List Char} {short : Bool} {ts : List Token}
    (h : Lexes cs short ts) :
    Lexes (writeText k ++ ':' :: cs) short (.text k :: .colon :: ts) :=
  (lexes_writeText k).append (h.cons rfl) fun _ _ => endsAtom_cons (by decide) _

mutual

/-- **A written value is cut into its tokens**, if its integers are short. -/
theorem lexes_chars : ∀ v : Value, v.IsPlain → Lexes v.chars v.isShort v.tokens
  | .null, _ => lexes_atom rfl (List.all_eq_true.1 rfl) rfl
  | .bool true, _ => lexes_atom rfl (List.all_eq_true.1 rfl) rfl
  | .bool false, _ => lexes_atom rfl (List.all_eq_true.1 rfl) rfl
  | .int n, _ => lexes_toString n
  | .float _, h => h.elim
  | .string s, _ => lexes_writeText s
  | .array items, h => by
    have hclose : Lexes [']'] true [.closeArray] := Lexes.nil.cons rfl
    have hitems := (lexes_itemChars items h).append hclose fun _ _ => endsAtom_cons (by decide) _
    rw [Bool.and_true] at hitems
    exact hitems.cons rfl
  | .object members, h => by
    have hclose : Lexes ['\x7d'] true [.closeObject] := Lexes.nil.cons rfl
    have hmembers :=
      (lexes_memberChars members h.2).append hclose fun _ _ => endsAtom_cons (by decide) _
    rw [Bool.and_true] at hmembers
    exact hmembers.cons rfl

theorem lexes_itemChars :
    ∀ vs : List Value, ArePlain vs → Lexes (itemChars vs) (areShort vs) (itemTokens vs)
  | [], _ => .nil
  | v :: vs, h =>
    (lexes_chars v h.1).append (lexes_moreItems vs h.2) fun _ => endsAtom_moreItems vs

theorem lexes_moreItems :
    ∀ vs : List Value, ArePlain vs → Lexes (moreItems vs) (areShort vs) (moreItemTokens vs)
  | [], _ => .nil
  | v :: vs, h =>
    ((lexes_chars v h.1).append (lexes_moreItems vs h.2) fun _ => endsAtom_moreItems vs).cons rfl

theorem lexes_memberChars : ∀ ms : List (String × Value), HavePlain ms →
    Lexes (memberChars ms) (haveShort ms) (memberTokens ms)
  | [], _ => .nil
  | (k, v) :: ms, h => by
    have hvalue :=
      (lexes_chars v h.1).append (lexes_moreMembers ms h.2) fun _ => endsAtom_moreMembers ms
    have hmember := hvalue.member k
    rw [← List.cons_append, ← List.append_assoc] at hmember
    exact hmember

theorem lexes_moreMembers : ∀ ms : List (String × Value), HavePlain ms →
    Lexes (moreMembers ms) (haveShort ms) (moreMemberTokens ms)
  | [], _ => .nil
  | (k, v) :: ms, h => by
    have hvalue :=
      (lexes_chars v h.1).append (lexes_moreMembers ms h.2) fun _ => endsAtom_moreMembers ms
    have hmember := hvalue.member k
    rw [← List.cons_append, ← List.append_assoc] at hmember
    exact hmember.cons rfl

end

/-- The text of a plain value has the tokens of the value, or none if an integer is too long. -/
theorem tokens?_render {v : Value} (h : v.IsPlain) :
    tokens? v.render.toList = if v.isShort then some v.tokens else none := by
  have hscan := lexes_chars v h [] endsAtom_nil
  rw [List.append_nil, scan_between_nil, Option.map_some, List.append_nil] at hscan
  rw [Value.render, String.toList_ofList]
  exact hscan

end Tabletop.Json
