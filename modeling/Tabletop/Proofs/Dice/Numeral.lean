import Tabletop.Proofs.Dice.Roll

/-!
# Numerals in expressions

Digits that stand together are read as one numeral: nothing but a character of another kind ends a
numeral, and the reader does not know where the digits come from.  A sign ends a numeral, and what
stands behind it is read as if nothing had been before.  A text of nothing but digits is rolled to
the number that they write.

## Main definitions

* `Token.numerals`, `Pending.numerals` — the numerals of a token, and those of a pending one.

## Main results

* `exists_numeral_of_step`, `exists_numeral_of_scan` — what has been read of a numeral stays at the
  start of one.
* `exists_numeral_of_tokens` — **digits that stand together are part of one numeral.**
* `spells_of_tokens_symbol` — a sign divides the tokens.
* `roll_digits` — **a text of digits is rolled to the number that they write**, if there are at most
  nine of them.
-/

namespace Tabletop.Dice

open Text

/-! ### The numerals of tokens -/

/-- The numerals of a token: a number, or the two numbers of dice. -/
def Token.numerals : Token → List (List Char)
  | number ds => [ds]
  | dice count _ faces => [count, faces]
  | _ => []

/-- The numerals of a pending token, as far as they have been read. -/
def Pending.numerals (p : Pending) : List (List Char) := p.toList.flatMap Token.numerals

/-- The numerals of a token that fits have at most nine digits. -/
theorem Token.length_le_of_fits {t : Token} (h : t.fits = true) {ds : List Char}
    (hds : ds ∈ t.numerals) : ds.length ≤ maxDigits := by
  cases t with
  | number ds' =>
    rw [List.mem_singleton.1 hds]
    exact of_decide_eq_true h
  | dice count letter faces =>
    rw [Token.fits, Bool.and_eq_true, decide_eq_true_eq, decide_eq_true_eq] at h
    rcases List.mem_cons.1 hds with rfl | hds
    · exact h.1
    · rw [List.mem_singleton.1 hds]
      exact h.2
  | sign s | scale s | opening | closing => cases hds

section Scan

variable {e : String} {p p' : Pending} {c : Char} {ts done : List Token} {ds : List Char}

theorem finishToken_eq_ok (h : finishToken e p c = .ok (done, p')) :
    ∃ more, done = p.toList ++ more := by
  unfold finishToken at h
  split at h
  · rcases hstart : startToken e c with f | ⟨more, p''⟩
    · rw [hstart] at h
      cases h
    · rw [hstart] at h
      cases h
      exact ⟨more, rfl⟩
  · cases h

theorem exists_numeral_of_finishToken (h : finishToken e p c = .ok (done, p'))
    (hds : ds ∈ p.numerals) : ∃ t ∈ done, ds ∈ t.numerals := by
  obtain ⟨more, rfl⟩ := finishToken_eq_ok h
  obtain ⟨t, ht, hds⟩ := List.mem_flatMap.1 hds
  exact ⟨t, List.mem_append_left more ht, hds⟩

/-- **One step keeps what has been read of a numeral**: it is finished, or it is still pending, and
digits may have been added at its end. -/
theorem exists_numeral_of_step (h : step e p c = .ok (done, p')) (hds : ds ∈ p.numerals) :
    (∃ t ∈ done, ds ∈ t.numerals) ∨ ∃ ds' ∈ p'.numerals, ds <+: ds' := by
  cases p with
  | nothing => cases hds
  | digits ds₀ =>
    obtain rfl : ds = ds₀ := List.mem_singleton.1 hds
    rw [step] at h
    split at h
    · cases h
      exact Or.inr ⟨ds ++ [c], List.mem_singleton_self _, List.prefix_append ds [c]⟩
    split at h
    · cases h
      exact Or.inr ⟨ds, List.mem_cons_self, List.prefix_rfl⟩
    · exact Or.inl (exists_numeral_of_finishToken h hds)
  | faces count letter ds₀ =>
    rw [step] at h
    split at h
    · cases h
      rcases List.mem_cons.1 hds with rfl | hds
      · exact Or.inr ⟨ds, List.mem_cons_self, List.prefix_rfl⟩
      · obtain rfl : ds = ds₀ := List.mem_singleton.1 hds
        exact Or.inr ⟨ds ++ [c], List.mem_cons_of_mem _ List.mem_cons_self,
          List.prefix_append ds [c]⟩
    · exact Or.inl (exists_numeral_of_finishToken h hds)

/-- **What has been read of a numeral is the start of a numeral** of the tokens. -/
theorem exists_numeral_of_scan {cs : List Char} (h : scan e p cs = .ok ts)
    (hds : ds ∈ p.numerals) : ∃ t ∈ ts, ∃ ds' ∈ t.numerals, ds <+: ds' := by
  induction cs generalizing p ts ds with
  | nil =>
    rw [scan_nil] at h
    split at h
    · cases h
      obtain ⟨t, ht, hds⟩ := List.mem_flatMap.1 hds
      exact ⟨t, ht, ds, hds, List.prefix_rfl⟩
    · cases h
  | cons c cs ih =>
    obtain ⟨done, p', more, hstep, hscan, rfl⟩ := scan_cons_eq_ok h
    rcases exists_numeral_of_step hstep hds with ⟨t, ht, hdone⟩ | ⟨ds', hpending, hprefix⟩
    · exact ⟨t, List.mem_append_left more ht, ds, hdone, List.prefix_rfl⟩
    · obtain ⟨t, ht, ds'', hds'', hmore⟩ := ih hscan hpending
      exact ⟨t, List.mem_append_right done ht, ds'', hds'', hprefix.trans hmore⟩

/-- A text is read from its start on: what follows is read with some token pending. -/
theorem exists_scan_of_append {before after : List Char} (h : scan e p (before ++ after) = .ok ts) :
    ∃ p' done more, scan e p' after = .ok more ∧ ts = done ++ more := by
  induction before generalizing p ts with
  | nil => exact ⟨p, [], ts, h, rfl⟩
  | cons c before ih =>
    obtain ⟨done, p', more, -, hscan, rfl⟩ := scan_cons_eq_ok h
    obtain ⟨p'', done', more', hafter, rfl⟩ := ih hscan
    exact ⟨p'', done ++ done', more', hafter, (List.append_assoc done done' more').symm⟩

/-- Digits go on with the pending numeral, or they start one. -/
theorem exists_pending_of_digits (hne : ds ≠ []) (hds : ∀ c ∈ ds, isDigit c = true) (p : Pending)
    (after : List Char) :
    ∃ p', scan e p (ds ++ after) = scan e p' after ∧ ∃ ds' ∈ p'.numerals, ds <:+: ds' := by
  cases p with
  | nothing =>
    exact ⟨.digits ds, scan_number e hne hds after, ds, List.mem_singleton_self ds,
      List.infix_rfl⟩
  | digits before =>
    refine ⟨.digits (before ++ ds), ?_, before ++ ds, List.mem_singleton_self _,
      (List.suffix_append before ds).isInfix⟩
    exact scan_digits e (fun _ _ hc => by rw [step, if_pos hc]) before hds after
  | faces count letter before =>
    refine ⟨.faces count letter (before ++ ds), ?_, before ++ ds,
      List.mem_cons_of_mem _ List.mem_cons_self, (List.suffix_append before ds).isInfix⟩
    exact @scan_digits e (.faces count letter) (fun _ _ hc => by rw [step, if_pos hc]) before ds hds
      after

/-- **A sign ends what is pending**: the text before it and the text behind it are read for
themselves. -/
theorem scan_append_symbol {t : Token} (ht : Token.ofChar? c = some t) {before after : List Char}
    (h : scan e p (before ++ c :: after) = .ok ts) :
    ∃ ts₁ ts₂, scan e p before = .ok ts₁ ∧ scan e .nothing after = .ok ts₂ ∧
      ts = ts₁ ++ t :: ts₂ := by
  induction before generalizing p ts with
  | nil =>
    have hstops : Stops (c :: after) := by
      intro c' hc'
      cases hc'
      exact (classes_of_ofChar? ht).2
    rw [List.nil_append, scan_of_stops e p hstops, scan_symbol e ht] at h
    rw [scan_nil]
    split at h
    · next hfits =>
      rw [if_pos hfits]
      rcases hafter : scan e .nothing after with f | ts₂
      · rw [hafter] at h
        cases h
      · rw [hafter] at h
        exact ⟨_, ts₂, rfl, rfl, (Except.ok.inj h).symm⟩
    · cases h
  | cons c' before ih =>
    obtain ⟨done, p', more, hstep, hscan, rfl⟩ := scan_cons_eq_ok h
    obtain ⟨ts₁, ts₂, hbefore, hafter, rfl⟩ := ih hscan
    refine ⟨done ++ ts₁, ts₂, ?_, hafter, (List.append_assoc done ts₁ (t :: ts₂)).symm⟩
    rw [scan_cons, hstep]
    simp only [hbefore]
    rfl

end Scan

/-- **Digits that stand together are part of one numeral**, and it has at most nine digits. -/
theorem exists_numeral_of_tokens {expression : String} {before ds after : List Char}
    {ts : List Token} (htokens : tokens expression = .ok ts)
    (hexpression : expression.toList = before ++ (ds ++ after)) (hne : ds ≠ [])
    (hds : ∀ c ∈ ds, isDigit c = true) :
    ∃ t ∈ ts, ∃ ds' ∈ t.numerals, ds <:+: ds' ∧ ds'.length ≤ maxDigits := by
  have hfits := (spells_of_tokens htokens).2.1
  unfold tokens at htokens
  split at htokens
  · cases htokens
  · cases htokens
  · next hscan =>
    cases htokens
    rw [hexpression] at hscan
    obtain ⟨p, done, more, hafter, rfl⟩ := exists_scan_of_append hscan
    obtain ⟨p', hdigits, ds₁, hds₁, hinfix⟩ :=
      exists_pending_of_digits (e := expression) hne hds p after
    rw [hdigits] at hafter
    obtain ⟨t, ht, ds₂, hds₂, hprefix⟩ := exists_numeral_of_scan hafter hds₁
    have hmem := List.mem_append_right done ht
    exact ⟨t, hmem, ds₂, hds₂, hinfix.trans hprefix.isInfix,
      Token.length_le_of_fits (List.all_eq_true.1 hfits t hmem) hds₂⟩

/-- **A sign divides the tokens**: those before it are written by the text before it, and those
behind it by the text behind it. -/
theorem spells_of_tokens_symbol {expression : String} {before after : List Char} {c : Char}
    {t : Token} (ht : Token.ofChar? c = some t) {ts : List Token}
    (htokens : tokens expression = .ok ts)
    (hexpression : expression.toList = before ++ c :: after) :
    ∃ ts₁ ts₂, ts = ts₁ ++ t :: ts₂ ∧ Spells before ts₁ ∧ Spells after ts₂ := by
  unfold tokens at htokens
  split at htokens
  · cases htokens
  · cases htokens
  · next hscan =>
    cases htokens
    rw [hexpression] at hscan
    obtain ⟨ts₁, ts₂, hbefore, hafter, hts⟩ := scan_append_symbol ht hscan
    exact ⟨ts₁, ts₂, hts, (spells_of_scan (p := .nothing) rfl hbefore).1,
      (spells_of_scan (p := .nothing) rfl hafter).1⟩

/-! ### Texts of digits -/

section Digits

variable {ds : List Char} (hne : ds ≠ []) (hds : ∀ c ∈ ds, isDigit c = true)
include hne hds

theorem tokens_digits :
    tokens (String.ofList ds) =
      if ds.length ≤ maxDigits then .ok [.number ds] else .error .longNumeral := by
  have hwritten : (Token.number ds).isWritten = true := by
    rw [Token.isWritten, List.isEmpty_eq_false_iff.2 hne, List.all_eq_true.2 hds]
    rfl
  have hspells : Spells (String.ofList ds).toList [.number ds] := by
    have hnumber := Spells.cons_token hwritten (.blanks (List.forall_mem_nil _))
    rw [Token.chars, List.append_nil] at hnumber
    rwa [String.toList_ofList]
  rw [tokens_of_spells hspells (List.isChain_singleton _) (List.cons_ne_nil _ _)]
  simp only [List.all_cons, List.all_nil, Bool.and_true, Token.fits, decide_eq_true_eq]

/-- **A text of digits is rolled to the number that they write**, if there are at most nine of them,
and no dice are taken. -/
theorem roll_digits (usual : Int) (supply : Supply) :
    (ds.length ≤ maxDigits →
        ∃ detail, roll (String.ofList ds) usual supply = (.ok ⟨numeralValue ds, detail⟩, supply)) ∧
      (maxDigits < ds.length →
        roll (String.ofList ds) usual supply = (.error .longNumeral, supply)) := by
  have htokens := tokens_digits hne hds
  constructor
  · intro hfits
    rw [if_pos hfits] at htokens
    have hparse : parse [.number ds] = .number ds :=
      parse_of_derives (.term (.factor (.number ds))) (Nat.zero_le _)
    have hroll := roll_of_inBounds (String.ofList ds) usual supply htokens (hparse ▸ trivial)
    rw [hparse] at hroll
    exact hroll
  · intro hlong
    rw [if_neg (Nat.not_le.2 hlong)] at htokens
    exact roll_of_tokens_error _ usual supply htokens

end Digits

end Tabletop.Dice
