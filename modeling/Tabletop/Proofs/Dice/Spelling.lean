import Mathlib.Data.List.Chain
import Tabletop.Proofs.Text.Classes

/-!
# How tokens are written

A list of tokens may be written in many ways, with any blanks between the tokens.  Reading a text
gives back the tokens that were written, as long as no two operands stand side by side: a number
behind a number would be read as one number.

## Main definitions

* `Token.isWritten` — the tokens that can be written at all.
* `Token.fits` — the numerals of a token have at most nine digits.
* `Spells` — a text writes a list of tokens.
* `AreLegible` — tokens that can be written and whose numerals fit.
* `Apart` — no two operands stand side by side.

## Main results

* `spells_of_tokens` — the tokens of a text are written by it.
* `tokens_of_spells` — **the tokens that a text writes are read from it**, if all their numerals fit
  and no two operands stand side by side.
-/

namespace Tabletop.Dice

open Text

/-! ### Written tokens -/

/-- Numbers have a digit, and the parts of numbers and dice are of the right class. -/
def Token.isWritten : Token → Bool
  | number ds => !ds.isEmpty && ds.all isDigit
  | dice count letter faces => count.all isDigit && isDiceLetter letter && faces.all isDigit
  | _ => true

/-- The numerals of the token have at most nine digits. -/
def Token.fits : Token → Bool
  | number ds => decide (ds.length ≤ maxDigits)
  | dice count _ faces => decide (count.length ≤ maxDigits) && decide (faces.length ≤ maxDigits)
  | _ => true

/-- Whether the token is a number or dice. -/
def Token.isOperand : Token → Bool
  | number _ => true
  | dice _ _ _ => true
  | _ => false

/-! ### Characters of tokens -/

theorem mem_symbols_sign (s : Sign) : s.symbol ∈ symbols :=
  mem_symbols_of_ofChar? (Token.ofChar?_sign s)

theorem mem_symbols_scale (s : Scale) : s.symbol ∈ symbols :=
  mem_symbols_of_ofChar? (Token.ofChar?_scale s)

theorem isDigit_of_isWritten_number {ds : List Char} (h : (Token.number ds).isWritten = true) :
    ∀ c ∈ ds, isDigit c = true := by
  rw [Token.isWritten, Bool.and_eq_true, List.all_eq_true] at h
  exact h.2

theorem classes_of_isWritten_dice {count faces : List Char} {letter : Char}
    (h : (Token.dice count letter faces).isWritten = true) :
    (∀ c ∈ count, isDigit c = true) ∧ isDiceLetter letter = true ∧
      ∀ c ∈ faces, isDigit c = true := by
  rw [Token.isWritten, Bool.and_eq_true, Bool.and_eq_true, List.all_eq_true,
    List.all_eq_true] at h
  exact ⟨h.1.1, h.1.2, h.2⟩

/-- A written token is made of digits, dice letters and signs. -/
theorem class_of_isWritten {t : Token} (h : t.isWritten = true) {c : Char} (hc : c ∈ t.chars) :
    isDigit c = true ∨ isDiceLetter c = true ∨ c ∈ symbols := by
  cases t with
  | number ds => exact Or.inl (isDigit_of_isWritten_number h c hc)
  | dice count letter faces =>
    obtain ⟨hcount, hletter, hfaces⟩ := classes_of_isWritten_dice h
    rcases List.mem_append.1 hc with hc | hc
    · exact Or.inl (hcount c hc)
    · rcases List.mem_cons.1 hc with rfl | hc
      · exact Or.inr (Or.inl hletter)
      · exact Or.inl (hfaces c hc)
  | sign s => exact Or.inr (Or.inr (List.mem_singleton.1 hc ▸ mem_symbols_sign s))
  | scale s => exact Or.inr (Or.inr (List.mem_singleton.1 hc ▸ mem_symbols_scale s))
  | opening => exact Or.inr (Or.inr (List.mem_singleton.1 hc ▸ by decide))
  | closing => exact Or.inr (Or.inr (List.mem_singleton.1 hc ▸ by decide))

theorem isWritten_number (n : Nat) : (Token.number (digitsOf n)).isWritten = true := by
  rw [Token.isWritten, Bool.and_eq_true, List.all_eq_true, Bool.not_eq_true',
    List.isEmpty_eq_false_iff]
  exact ⟨digitsOf_ne_nil n, fun _ => isDigit_of_mem_digitsOf⟩

theorem fits_number {n : Nat} (h : n < 10 ^ maxDigits) : (Token.number (digitsOf n)).fits = true :=
  decide_eq_true ((Nat.length_toDigits_le_iff (by decide) (by decide)).2 h)

/-! ### Written lists of tokens -/

/-- A text writes a list of tokens, with any blanks before, between and behind them. -/
inductive Spells : List Char → List Token → Prop
  /-- Blanks write nothing. -/
  | blanks {cs : List Char} (h : ∀ c ∈ cs, isBlank c = true) : Spells cs []
  /-- A token may have blanks before it. -/
  | token {bs cs : List Char} {t : Token} {ts : List Token} (hb : ∀ c ∈ bs, isBlank c = true)
      (ht : t.isWritten = true) (h : Spells cs ts) : Spells (bs ++ (t.chars ++ cs)) (t :: ts)

theorem Spells.isWritten {cs : List Char} {ts : List Token} (h : Spells cs ts) :
    ∀ t ∈ ts, t.isWritten = true := by
  induction h with
  | blanks => exact List.forall_mem_nil _
  | token _ ht _ ih => exact List.forall_mem_cons.2 ⟨ht, ih⟩

/-- The tokens can be written, and their numerals have at most nine digits. -/
def AreLegible (ts : List Token) : Prop := ∀ t ∈ ts, t.isWritten = true ∧ t.fits = true

theorem areLegible_append_cons {ls rs : List Token} {t : Token} :
    AreLegible (ls ++ t :: rs) ↔
      AreLegible ls ∧ (t.isWritten = true ∧ t.fits = true) ∧ AreLegible rs := by
  rw [AreLegible, List.forall_mem_append, List.forall_mem_cons]
  rfl

/-- No two operands stand side by side. -/
def Apart (ts : List Token) : Prop :=
  ts.IsChain fun a b => a.isOperand = true → b.isOperand = false

theorem Spells.cons_blank {c : Char} (hc : isBlank c = true) {cs : List Char} {ts : List Token}
    (h : Spells cs ts) : Spells (c :: cs) ts := by
  cases h with
  | blanks hb => exact .blanks (List.forall_mem_cons.2 ⟨hc, hb⟩)
  | token hb ht h => exact .token (List.forall_mem_cons.2 ⟨hc, hb⟩) ht h

theorem Spells.cons_token {t : Token} (ht : t.isWritten = true) {cs : List Char} {ts : List Token}
    (h : Spells cs ts) : Spells (t.chars ++ cs) (t :: ts) :=
  .token (List.forall_mem_nil _) ht h

/-- Tokens may be written without blanks. -/
theorem spells_flatMap {ts : List Token} (h : ∀ t ∈ ts, t.isWritten = true) :
    Spells (ts.flatMap Token.chars) ts := by
  induction ts with
  | nil => exact .blanks (List.forall_mem_nil _)
  | cons t ts ih =>
    rw [List.forall_mem_cons] at h
    exact Spells.cons_token h.1 (ih h.2)

/-- A text holds the characters of the tokens that it writes. -/
theorem Spells.mem_of_token {cs : List Char} {ts : List Token} (h : Spells cs ts) {t : Token}
    (ht : t ∈ ts) {c : Char} (hc : c ∈ t.chars) : c ∈ cs := by
  induction h with
  | blanks => cases ht
  | @token bs cs t' ts hb ht' h ih =>
    rcases List.mem_cons.1 ht with rfl | ht
    · exact List.mem_append_right _ (List.mem_append_left _ hc)
    · exact List.mem_append_right _ (List.mem_append_right _ (ih ht))

/-! ### Soundness -/

/-- What has been read of a pending token. -/
def Pending.chars (p : Pending) : List Char := p.toList.flatMap Token.chars

/-- A pending token can be written. -/
def Pending.isWritten (p : Pending) : Bool := p.toList.all Token.isWritten

@[simp] theorem Pending.chars_digits (ds : List Char) : (digits ds).chars = ds :=
  List.append_nil ds

@[simp] theorem Pending.chars_faces (count : List Char) (letter : Char) (ds : List Char) :
    (faces count letter ds).chars = count ++ letter :: ds := List.append_nil _

@[simp] theorem Pending.isWritten_digits (ds : List Char) :
    (digits ds).isWritten = (!ds.isEmpty && ds.all isDigit) := Bool.and_true _

@[simp] theorem Pending.isWritten_faces (count : List Char) (letter : Char) (ds : List Char) :
    (faces count letter ds).isWritten =
      (count.all isDigit && isDiceLetter letter && ds.all isDigit) := Bool.and_true _

theorem Pending.fits_eq (p : Pending) : p.fits = p.toList.all Token.fits := by
  cases p with
  | nothing => rfl
  | digits ds => exact (Bool.and_true _).symm
  | faces count letter ds => exact (Bool.and_true _).symm

theorem Spells.pending {p : Pending} (hp : p.isWritten = true) {cs : List Char} {ts : List Token}
    (h : Spells cs ts) : Spells (p.chars ++ cs) (p.toList ++ ts) := by
  have hall := List.all_eq_true.1 hp
  cases p with
  | nothing => exact h
  | digits ds =>
    rw [Pending.chars_digits]
    exact .cons_token (hall _ List.mem_cons_self) h
  | faces count letter ds =>
    rw [Pending.chars_faces]
    exact .cons_token (hall _ List.mem_cons_self) h

/-- What one step of reading has done: the tokens that it has completed fit, and what is pending
after it continues a text that writes all of them. -/
structure Advances (p : Pending) (c : Char) (done : List Token) (p' : Pending) : Prop where
  written : p'.isWritten = true
  fits : done.all Token.fits = true
  spells : ∀ {rest ts}, Spells (p'.chars ++ rest) ts → Spells (p.chars ++ c :: rest) (done ++ ts)

theorem advances_startToken {e : String} {c : Char} {done : List Token} {p' : Pending}
    (h : startToken e c = .ok (done, p')) : Advances .nothing c done p' := by
  unfold startToken at h
  split at h
  · next hblank =>
    cases h
    exact ⟨rfl, rfl, Spells.cons_blank hblank⟩
  split at h
  · next hdigit =>
    cases h
    exact ⟨by simp [hdigit], rfl, id⟩
  split at h
  · next hletter =>
    cases h
    exact ⟨by simp [hletter], rfl, id⟩
  split at h
  · next t ht =>
    cases h
    have hall : symbols.all
        (fun c => (Token.ofChar? c).all fun t => t.isWritten && t.fits) = true := by decide
    have hsymbol := List.all_eq_true.1 hall c (mem_symbols_of_ofChar? ht)
    rw [ht, Option.all_some, Bool.and_eq_true] at hsymbol
    refine ⟨rfl, by simp [hsymbol.2], ?_⟩
    intro rest ts hspells
    have htoken := Spells.cons_token hsymbol.1 hspells
    rw [chars_of_ofChar? ht] at htoken
    exact htoken
  · cases h

theorem advances_finishToken {e : String} {p : Pending} (hp : p.isWritten = true) {c : Char}
    {done : List Token} {p' : Pending} (h : finishToken e p c = .ok (done, p')) :
    Advances p c done p' := by
  unfold finishToken at h
  split at h
  · next hfits =>
    rcases hstart : startToken e c with f | ⟨done', p''⟩
    · rw [hstart] at h
      cases h
    · rw [hstart] at h
      cases h
      obtain ⟨hwritten, hdone, hspells⟩ := advances_startToken hstart
      refine ⟨hwritten, ?_, ?_⟩
      · rw [List.all_append, ← p.fits_eq, hfits, hdone]
        rfl
      · intro rest ts h
        rw [List.append_assoc]
        exact (hspells h).pending hp
  · cases h

/-- A character that goes on with a pending token completes none. -/
theorem advances_pending {p p' : Pending} {c : Char} (hwritten : p'.isWritten = true)
    (hchars : p'.chars = p.chars ++ [c]) : Advances p c [] p' := by
  refine ⟨hwritten, rfl, ?_⟩
  intro rest ts hspells
  rw [hchars, List.append_assoc, List.singleton_append] at hspells
  exact hspells

/-- **One step of reading keeps a text and its tokens together.** -/
theorem advances_step {e : String} {p : Pending} (hp : p.isWritten = true) {c : Char}
    {done : List Token} {p' : Pending} (h : step e p c = .ok (done, p')) :
    Advances p c done p' := by
  cases p with
  | nothing => exact advances_startToken h
  | digits ds =>
    have hds := hp
    rw [Pending.isWritten_digits, Bool.and_eq_true] at hds
    rw [step] at h
    split at h
    · next hdigit =>
      cases h
      exact advances_pending (by simp [hds.2, hdigit]) (by simp)
    split at h
    · next hletter =>
      cases h
      exact advances_pending (by simp [hds.2, hletter]) (by simp)
    · exact advances_finishToken hp h
  | faces count letter ds =>
    rw [step] at h
    split at h
    · next hdigit =>
      cases h
      rw [Pending.isWritten_faces] at hp
      refine advances_pending ?_ (by simp)
      rw [Pending.isWritten_faces, List.all_append, ← Bool.and_assoc, hp, List.all_cons, hdigit]
      rfl
    · exact advances_finishToken hp h

/-- A text that is read has been read by one step and then by the others. -/
theorem scan_cons_eq_ok {e : String} {p : Pending} {c : Char} {cs : List Char} {ts : List Token}
    (h : scan e p (c :: cs) = .ok ts) :
    ∃ done p' more, step e p c = .ok (done, p') ∧ scan e p' cs = .ok more ∧ ts = done ++ more := by
  rw [scan_cons] at h
  rcases hstep : step e p c with f | ⟨done, p'⟩
  · rw [hstep] at h
    cases h
  rw [hstep] at h
  rcases hscan : scan e p' cs with f | more
  · simp only [hscan] at h
    cases h
  · simp only [hscan] at h
    exact ⟨done, p', more, rfl, hscan, (Except.ok.inj h).symm⟩

theorem spells_of_scan {e : String} {p : Pending} (hp : p.isWritten = true) {cs : List Char}
    {ts : List Token} (h : scan e p cs = .ok ts) :
    Spells (p.chars ++ cs) ts ∧ ts.all Token.fits = true := by
  induction cs generalizing p ts with
  | nil =>
    rw [scan_nil] at h
    split at h
    · next hfits =>
      cases h
      have hspells := (Spells.blanks (List.forall_mem_nil _)).pending hp
      rw [List.append_nil] at hspells ⊢
      exact ⟨by simpa using hspells, p.fits_eq ▸ hfits⟩
    · cases h
  | cons c cs ih =>
    obtain ⟨done, p', more, hstep, hscan, rfl⟩ := scan_cons_eq_ok h
    obtain ⟨hwritten, hdone, hspells⟩ := advances_step hp hstep
    obtain ⟨hrest, hfits⟩ := ih hwritten hscan
    refine ⟨hspells hrest, ?_⟩
    rw [List.all_append, hdone, hfits]
    rfl

/-- **The tokens of a text are written by it**, and all their numerals fit. -/
theorem spells_of_tokens {e : String} {ts : List Token} (h : tokens e = .ok ts) :
    Spells e.toList ts ∧ ts.all Token.fits = true ∧ ts ≠ [] := by
  unfold tokens at h
  split at h
  · cases h
  · cases h
  · next ts' hne hscan =>
    cases h
    obtain ⟨hspells, hfits⟩ := spells_of_scan (p := .nothing) rfl hscan
    exact ⟨hspells, hfits, fun hnil => hne hnil⟩

theorem areLegible_of_tokens {e : String} {ts : List Token} (h : tokens e = .ok ts) :
    AreLegible ts := by
  obtain ⟨hspells, hfits, -⟩ := spells_of_tokens h
  exact fun t ht => ⟨hspells.isWritten t ht, List.all_eq_true.1 hfits t ht⟩

/-! ### Completeness -/

/-- A character that completes no token leads on to what is pending next. -/
theorem scan_cons_of_step {e : String} {p p' : Pending} {c : Char} (h : step e p c = .ok ([], p'))
    (rest : List Char) : scan e p (c :: rest) = scan e p' rest := by
  rw [scan_cons, h]
  show (scan e p' rest).map ([] ++ ·) = _
  rcases scan e p' rest with f | ts
  · rfl
  · rfl

theorem scan_blanks (e : String) {bs : List Char} (h : ∀ c ∈ bs, isBlank c = true)
    (rest : List Char) : scan e .nothing (bs ++ rest) = scan e .nothing rest := by
  induction bs with
  | nil => rfl
  | cons b bs ih =>
    rw [List.forall_mem_cons] at h
    rw [List.cons_append, scan_blank e h.1, ih h.2]

theorem scan_symbol (e : String) {c : Char} {t : Token} (h : Token.ofChar? c = some t)
    (rest : List Char) :
    scan e .nothing (c :: rest) = (scan e .nothing rest).map (t :: ·) := by
  obtain ⟨hblank, hdigit, hletter⟩ := classes_of_ofChar? h
  have hstep : step e .nothing c = .ok ([t], .nothing) := by
    simp only [step, startToken, hblank, hdigit, hletter, h, Bool.false_eq_true, if_false]
  rw [scan_cons, hstep]
  rfl

/-- A pending token takes in the digits that follow it. -/
theorem scan_digits (e : String) {pending : List Char → Pending}
    (hstep : ∀ ds c, isDigit c = true → step e (pending ds) c = .ok ([], pending (ds ++ [c])))
    (ds : List Char) {more : List Char} (h : ∀ c ∈ more, isDigit c = true) (rest : List Char) :
    scan e (pending ds) (more ++ rest) = scan e (pending (ds ++ more)) rest := by
  induction more generalizing ds with
  | nil => rw [List.append_nil, List.nil_append]
  | cons c more ih =>
    rw [List.forall_mem_cons] at h
    rw [List.cons_append, scan_cons_of_step (hstep ds c h.1), ih (ds ++ [c]) h.2,
      List.append_assoc, List.singleton_append]

/-- Digits start a number, or the count of dice. -/
theorem scan_number (e : String) {ds : List Char} (hne : ds ≠ [])
    (h : ∀ c ∈ ds, isDigit c = true) (rest : List Char) :
    scan e .nothing (ds ++ rest) = scan e (.digits ds) rest := by
  rcases ds with _ | ⟨d, ds⟩
  · exact absurd rfl hne
  · rw [List.forall_mem_cons] at h
    have hblank := isBlank_eq_false_of_isDigit h.1
    have hstep : step e .nothing d = .ok ([], .digits [d]) := by
      simp only [step, startToken, hblank, h.1, Bool.false_eq_true, if_false, if_true]
    rw [List.cons_append, scan_cons_of_step hstep]
    exact scan_digits e (fun _ _ hc => by rw [step, if_pos hc]) [d] h.2 rest

/-- A dice letter turns the digits before it into the count of dice. -/
theorem scan_letter (e : String) {count : List Char} (hcount : ∀ c ∈ count, isDigit c = true)
    {letter : Char} (hletter : isDiceLetter letter = true) (rest : List Char) :
    scan e .nothing (count ++ letter :: rest) = scan e (.faces count letter []) rest := by
  obtain ⟨hblank, hdigit⟩ := not_isBlank_of_isDiceLetter hletter
  by_cases hne : count = []
  · subst hne
    have hstep : step e .nothing letter = .ok ([], .faces [] letter []) := by
      simp only [step, startToken, hblank, hdigit, hletter, Bool.false_eq_true, if_false, if_true]
    rw [List.nil_append, scan_cons_of_step hstep]
  · have hstep : step e (.digits count) letter = .ok ([], .faces count letter []) := by
      simp only [step, hdigit, hletter, Bool.false_eq_true, if_false, if_true]
    rw [scan_number e hne hcount, scan_cons_of_step hstep]

/-- The next character belongs to no number and to no dice. -/
def Stops (cs : List Char) : Prop := ∀ c ∈ cs.head?, isDigit c = false ∧ isDiceLetter c = false

/-- Where the next character does not belong to it, a pending token is finished. -/
theorem scan_of_stops (e : String) (p : Pending) {cs : List Char} (h : Stops cs) :
    scan e p cs =
      if p.fits then (scan e .nothing cs).map (p.toList ++ ·) else .error .longNumeral := by
  cases cs with
  | nil =>
    rw [scan_nil, scan_nil]
    show _ = if p.fits then Except.ok (p.toList ++ []) else _
    rw [List.append_nil]
  | cons c cs =>
    obtain ⟨hdigit, hletter⟩ := h c rfl
    have hstep : step e p c = finishToken e p c := by
      cases p with
      | nothing =>
        show startToken e c = (startToken e c).map fun r => ([] ++ r.1, r.2)
        rcases startToken e c with f | r
        · rfl
        · rfl
      | digits ds => simp only [step, hdigit, hletter, Bool.false_eq_true, if_false]
      | faces count letter ds => simp only [step, hdigit, Bool.false_eq_true, if_false]
    rw [scan_cons, hstep, finishToken, scan_cons]
    by_cases hfits : p.fits = true
    · rw [if_pos hfits, if_pos hfits, step]
      rcases startToken e c with f | ⟨done, p'⟩
      · rfl
      · show (scan e p' cs).map (p.toList ++ done ++ ·) =
          ((scan e p' cs).map (done ++ ·)).map (p.toList ++ ·)
        rcases scan e p' cs with f | ts
        · rfl
        · exact congrArg Except.ok (List.append_assoc _ _ _)
    · rw [if_neg hfits, if_neg hfits]

/-- Behind an operand something else has to be written. -/
theorem Spells.stops {cs : List Char} {ts : List Token} (h : Spells cs ts)
    (hts : ∀ t ∈ ts.head?, t.isOperand = false) : Stops cs := by
  intro c hc
  -- A blank is the next character, or else the first one of the next token.
  have hblank : isBlank c = true → isDigit c = false ∧ isDiceLetter c = false := fun hb =>
    ⟨isDigit_eq_false_of_isBlank hb, isDiceLetter_eq_false_of_isBlank hb⟩
  cases h with
  | blanks hb => exact hblank (hb c (List.mem_of_mem_head? hc))
  | @token bs cs t ts hb ht h =>
    rcases bs with _ | ⟨b, bs⟩
    · have hoperand := hts t rfl
      cases t with
      | number ds => cases hoperand
      | dice count letter faces => cases hoperand
      | sign s =>
        cases hc
        exact (classes_of_ofChar? (Token.ofChar?_sign s)).2
      | scale s =>
        cases hc
        exact (classes_of_ofChar? (Token.ofChar?_scale s)).2
      | opening =>
        cases hc
        decide
      | closing =>
        cases hc
        decide
    · cases hc
      exact hblank (hb _ List.mem_cons_self)

/-- **A text is read as the tokens that it writes**, if no two operands stand side by side. -/
theorem scan_of_spells (e : String) {cs : List Char} {ts : List Token} (h : Spells cs ts)
    (hapart : Apart ts) :
    scan e .nothing cs = if ts.all Token.fits then .ok ts else .error .longNumeral := by
  induction h with
  | @blanks cs hb =>
    have hscan := scan_blanks e hb []
    rw [List.append_nil] at hscan
    rw [hscan]
    rfl
  | @token bs cs t ts hb ht h ih =>
    rw [Apart, List.isChain_cons] at hapart
    have ih := ih hapart.2
    have hstops : t.isOperand = true → Stops cs :=
      fun hoperand => h.stops fun t' ht' => hapart.1 t' ht' hoperand
    have hcons : (if t.fits then (scan e .nothing cs).map (t :: ·) else .error .longNumeral) =
        if (t :: ts).all Token.fits then .ok (t :: ts) else .error .longNumeral := by
      rw [ih, List.all_cons]
      cases t.fits with
      | false => rfl
      | true =>
        cases ts.all Token.fits with
        | false => rfl
        | true => rfl
    rw [scan_blanks e hb, ← hcons]
    cases t with
    | number ds =>
      simp only [Token.isWritten, Bool.and_eq_true, Bool.not_eq_true', List.all_eq_true,
        List.isEmpty_eq_false_iff] at ht
      rw [Token.chars, scan_number e ht.1 ht.2, scan_of_stops e _ (hstops rfl)]
      rfl
    | dice count letter faces =>
      simp only [Token.isWritten, Bool.and_eq_true, List.all_eq_true] at ht
      obtain ⟨⟨hcount, hletter⟩, hfaces⟩ := ht
      have hstep : ∀ ds c, isDigit c = true →
          step e (.faces count letter ds) c = .ok ([], .faces count letter (ds ++ [c])) :=
        fun _ _ hc => by rw [step, if_pos hc]
      have hscan := scan_digits e hstep [] hfaces cs
      rw [Token.chars, List.append_assoc, List.cons_append, scan_letter e hcount hletter, hscan,
        scan_of_stops e _ (hstops rfl)]
      rfl
    | sign s => exact scan_symbol e (Token.ofChar?_sign s) cs
    | scale s => exact scan_symbol e (Token.ofChar?_scale s) cs
    | opening => exact scan_symbol e rfl cs
    | closing => exact scan_symbol e rfl cs

/-- **The tokens that a text writes are read from it**, if all their numerals fit; otherwise
a numeral is too long. -/
theorem tokens_of_spells {e : String} {ts : List Token} (h : Spells e.toList ts)
    (hapart : Apart ts) (hne : ts ≠ []) :
    tokens e = if ts.all Token.fits then .ok ts else .error .longNumeral := by
  rw [tokens, scan_of_spells e h hapart]
  rcases ts with _ | ⟨t, ts⟩
  · exact absurd rfl hne
  · cases (t :: ts).all Token.fits with
    | false => rfl
    | true => rfl

/-- Legible tokens are read from what they write without blanks. -/
theorem tokens_of_areLegible {ts : List Token} (h : AreLegible ts) (hapart : Apart ts)
    (hne : ts ≠ []) : tokens (String.ofList (ts.flatMap Token.chars)) = .ok ts := by
  have hspells : Spells (String.ofList (ts.flatMap Token.chars)).toList ts := by
    rw [String.toList_ofList]
    exact spells_flatMap fun t ht => (h t ht).1
  have hfits : ts.all Token.fits = true := List.all_eq_true.2 fun t ht => (h t ht).2
  rw [tokens_of_spells hspells hapart hne, if_pos hfits]

end Tabletop.Dice
