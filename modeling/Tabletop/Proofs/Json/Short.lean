import Tabletop.Proofs.Json.Lexing
import Tabletop.Proofs.Text.Classes
import Tabletop.Row.Field

/-!
# What is read has short integers

A JSON text with an integer of too many digits is refused.  So every integer in a value that was
read is short, and so is every integer that a field gives: the numerals in texts have the same
limit, and the other numbers that count as integers are far below it.

## Main definitions

* `Token.isShort`, `Frame.isShort`, `Place.isShort` — whether all integers seen so far are short.

## Main results

* `atom?_isShort` — an atom is a short integer, or none.
* `Place.isShort_step`, `Place.isShort_run` — reading on keeps the integers short.
* `read?_isShort` — **a value that is read has short integers.**
* `Row.isShort_of_readInteger` — an integer that a field gives is short.
-/

namespace Tabletop.Json

open Text

/-! ### Atoms -/

section Atoms

variable {cs : List Char} {v : Value}

theorem unsigned?_isShort {negative : Bool} (h : unsigned? negative cs = some v) :
    v.isShort = true := by
  unfold unsigned? at h
  simp only at h
  split at h
  · next hwhole =>
    have hlength := of_decide_eq_true (Bool.and_eq_true_iff.1 hwhole).2
    split at h
    · -- No more digits than the limit write a number below a power of ten.
      obtain rfl := Option.some.inj h
      have hlt := Nat.lt_of_lt_of_le (numeralValue_lt (cs.takeWhile Char.isDigit))
        (Nat.pow_le_pow_right (by decide) hlength)
      refine decide_eq_true (isShort_iff.2 ?_)
      cases negative with
      | true =>
        rw [if_pos rfl, Int.natAbs_neg, Int.natAbs_natCast]
        exact hlt
      | false =>
        rw [if_neg Bool.false_ne_true, Int.natAbs_natCast]
        exact hlt
    · split at h
      · cases h
      · obtain ⟨e, -, rfl⟩ := Option.map_eq_some_iff.1 h
        rfl
    · obtain ⟨e, -, rfl⟩ := Option.map_eq_some_iff.1 h
      rfl
  · cases h

theorem number?_isShort (h : number? cs = some v) : v.isShort = true := by
  unfold number? at h
  split at h
  · exact unsigned?_isShort h
  · exact unsigned?_isShort h

/-- **An atom is a short integer, or none.** -/
theorem atom?_isShort (h : atom? cs = some v) : v.isShort = true := by
  unfold atom? at h
  iterate 6
    split at h
    · obtain rfl := Option.some.inj h
      rfl
  exact number?_isShort h

end Atoms

/-! ### Tokens -/

/-- Whether the integer of a token, if it has one, is short. -/
def Token.isShort : Token → Bool
  | .atom v => v.isShort
  | _ => true

section Tokens

variable {c : Char} {s s' : State} {ts : List Token}

/-- Between two tokens no atom is completed. -/
theorem isShort_start (h : start c = some (ts, s)) : ts.all Token.isShort = true := by
  unfold start at h
  iterate 9
    split at h
    · obtain ⟨rfl, rfl⟩ := Prod.mk.inj (Option.some.inj h)
      rfl
  cases h

theorem isShort_step (h : step s c = some (ts, s')) : ts.all Token.isShort = true := by
  cases s with
  | between => exact isShort_start h
  | inAtom cs =>
    rw [step] at h
    split at h
    · obtain ⟨rfl, rfl⟩ := Prod.mk.inj (Option.some.inj h)
      rfl
    · obtain ⟨v, hv, hstart⟩ := Option.bind_eq_some_iff.1 h
      obtain ⟨⟨ts', s''⟩, hts', hr⟩ := Option.map_eq_some_iff.1 hstart
      obtain ⟨rfl, rfl⟩ := Prod.mk.inj hr
      rw [List.all_cons, isShort_start hts', Bool.and_true]
      exact atom?_isShort hv
  | inText cs =>
    rw [step] at h
    iterate 2
      split at h
      · obtain ⟨rfl, rfl⟩ := Prod.mk.inj (Option.some.inj h)
        rfl
    split at h
    · cases h
    · obtain ⟨rfl, rfl⟩ := Prod.mk.inj (Option.some.inj h)
      rfl
  | afterBackslash cs =>
    rw [step] at h
    split at h
    · obtain ⟨rfl, rfl⟩ := Prod.mk.inj (Option.some.inj h)
      rfl
    · obtain ⟨d, -, hr⟩ := Option.map_eq_some_iff.1 h
      obtain ⟨rfl, rfl⟩ := Prod.mk.inj hr
      rfl
  | inCode cs high count value =>
    rw [step] at h
    obtain ⟨d, -, hd⟩ := Option.bind_eq_some_iff.1 h
    split at hd
    · obtain ⟨s'', -, hr⟩ := Option.map_eq_some_iff.1 hd
      obtain ⟨rfl, rfl⟩ := Prod.mk.inj hr
      rfl
    · obtain ⟨rfl, rfl⟩ := Prod.mk.inj (Option.some.inj hd)
      rfl
  | afterHigh cs high | beforeLow cs high =>
    rw [step] at h
    split at h
    · obtain ⟨rfl, rfl⟩ := Prod.mk.inj (Option.some.inj h)
      rfl
    · cases h

theorem isShort_scan {cs : List Char} (h : scan s cs = some ts) : ts.all Token.isShort = true := by
  induction cs generalizing s ts with
  | nil =>
    cases s with
    | between =>
      obtain rfl := Option.some.inj h
      rfl
    | inAtom cs =>
      obtain ⟨v, hv, rfl⟩ := Option.map_eq_some_iff.1 h
      rw [List.all_cons, List.all_nil, Bool.and_true]
      exact atom?_isShort hv
    | inText _ | afterBackslash _ | inCode _ _ _ _ | afterHigh _ _ | beforeLow _ _ => cases h
  | cons c cs ih =>
    rw [scan_cons] at h
    obtain ⟨⟨done, s'⟩, hstep, hrest⟩ := Option.bind_eq_some_iff.1 h
    obtain ⟨ts', hts', rfl⟩ := Option.map_eq_some_iff.1 hrest
    rw [List.all_append, isShort_step hstep, ih hts', Bool.and_self]

end Tokens

/-! ### Values -/

theorem areShort_append (vs ws : List Value) :
    areShort (vs ++ ws) = (areShort vs && areShort ws) := by
  induction vs with
  | nil => rfl
  | cons v vs ih => rw [List.cons_append, areShort, areShort, ih, Bool.and_assoc]

theorem areShort_append_singleton {vs : List Value} {v : Value} (hvs : areShort vs = true)
    (hv : v.isShort = true) : areShort (vs ++ [v]) = true := by
  rw [areShort_append, hvs, areShort, hv]
  rfl

theorem haveShort_write {k : String} {v : Value} {ms : List (String × Value)}
    (hv : v.isShort = true) (hms : haveShort ms = true) :
    haveShort (InsertionMap.write k v ms) = true := by
  induction ms with
  | nil =>
    rw [InsertionMap.write, haveShort, hv]
    rfl
  | cons m ms ih =>
    obtain ⟨k', w⟩ := m
    rw [haveShort, Bool.and_eq_true] at hms
    rw [InsertionMap.write]
    split
    · rw [haveShort, hv, hms.2, Bool.and_self]
    · rw [haveShort, hms.1, ih hms.2, Bool.and_self]

theorem isShort_of_field? {ms : List (String × Value)} {k : String} {v : Value}
    (hms : haveShort ms = true) (h : field? ms k = some v) : v.isShort = true := by
  induction ms with
  | nil => cases h
  | cons m ms ih =>
    obtain ⟨k', w⟩ := m
    rw [haveShort, Bool.and_eq_true] at hms
    rw [field?, InsertionMap.find] at h
    split at h
    · obtain rfl := Option.some.inj h
      exact hms.1
    · exact ih hms.2 h

theorem isShort_of_mem_items {vs : List Value} {v : Value} (hvs : areShort vs = true)
    (h : v ∈ vs) : v.isShort = true := by
  induction vs with
  | nil => cases h
  | cons w vs ih =>
    rw [areShort, Bool.and_eq_true] at hvs
    rcases List.mem_cons.1 h with rfl | hrest
    · exact hvs.1
    · exact ih hvs.2 hrest

/-! ### Places -/

/-- Whether all integers in an open array or object are short. -/
def Frame.isShort : Frame → Bool
  | .items done => areShort done
  | .member done _ => haveShort done

/-- Whether all integers that were read up to a place are short. -/
def Place.isShort : Place → Bool
  | .value frames | .firstItem frames | .firstKey frames => frames.all Frame.isShort
  | .key done frames | .colon done _ frames => haveShort done && frames.all Frame.isShort
  | .after v frames => v.isShort && frames.all Frame.isShort

section Places

variable {limit : Nat} {frames : List Frame} {t : Token} {p p' : Place}

theorem isShort_startValue (h : startValue limit frames t = some p)
    (hframes : frames.all Frame.isShort = true) (ht : t.isShort = true) : p.isShort = true := by
  unfold startValue at h
  split at h
  · cases h
  cases t with
  | atom v =>
    obtain rfl := Option.some.inj h
    exact Bool.and_eq_true_iff.2 ⟨ht, hframes⟩
  | text s | openArray | openObject =>
    obtain rfl := Option.some.inj h
    exact hframes
  | closeArray | closeObject | colon | comma => cases h

/-- In an array that has just been opened a value may start as anywhere. -/
theorem step_firstItem (frames : List Frame) (ht : t ≠ .closeArray) :
    (Place.firstItem frames).step limit t = startValue limit (.items [] :: frames) t := by
  cases t with
  | closeArray => exact absurd rfl ht
  | openArray | openObject | closeObject | colon | comma | text _ | atom _ => rfl

/-- **Reading a token keeps the integers short.** -/
theorem Place.isShort_step (h : p.step limit t = some p') (hp : p.isShort = true)
    (ht : t.isShort = true) : p'.isShort = true := by
  cases p with
  | value frames => exact isShort_startValue h hp ht
  | firstItem frames =>
    by_cases hclose : t = .closeArray
    · subst hclose
      obtain rfl := Option.some.inj h
      exact hp
    · rw [step_firstItem frames hclose] at h
      exact isShort_startValue h hp ht
  | firstKey frames =>
    cases t with
    | closeObject | text k =>
      obtain rfl := Option.some.inj h
      exact hp
    | openArray | closeArray | openObject | colon | comma | atom _ => cases h
  | key done frames =>
    cases t with
    | text k =>
      obtain rfl := Option.some.inj h
      exact hp
    | openArray | closeArray | openObject | closeObject | colon | comma | atom _ => cases h
  | colon done k frames =>
    cases t with
    | colon =>
      obtain rfl := Option.some.inj h
      exact hp
    | openArray | closeArray | openObject | closeObject | comma | text _ | atom _ => cases h
  | after v frames =>
    obtain ⟨hv, hframes⟩ := Bool.and_eq_true_iff.1 hp
    rcases frames with _ | ⟨frame, frames⟩
    · cases t <;> cases h
    rw [List.all_cons, Bool.and_eq_true] at hframes
    -- The value joins the innermost frame, which goes on or is closed.
    cases frame with
    | items done =>
      have hdone := areShort_append_singleton hframes.1 hv
      cases t with
      | comma | closeArray =>
        obtain rfl := Option.some.inj h
        exact Bool.and_eq_true_iff.2 ⟨hdone, hframes.2⟩
      | openArray | openObject | closeObject | colon | text _ | atom _ => cases h
    | member done k =>
      have hdone : haveShort (InsertionMap.write k v done) = true := haveShort_write hv hframes.1
      cases t with
      | comma | closeObject =>
        obtain rfl := Option.some.inj h
        exact Bool.and_eq_true_iff.2 ⟨hdone, hframes.2⟩
      | openArray | closeArray | openObject | colon | text _ | atom _ => cases h

theorem Place.isShort_run {ts : List Token} (h : p.run limit ts = some p')
    (hp : p.isShort = true) (hts : ts.all Token.isShort = true) : p'.isShort = true := by
  induction ts generalizing p with
  | nil =>
    obtain rfl := Option.some.inj h
    exact hp
  | cons t ts ih =>
    rw [List.all_cons, Bool.and_eq_true] at hts
    rw [run_cons] at h
    obtain ⟨q, hq, hrest⟩ := Option.bind_eq_some_iff.1 h
    exact ih hrest (isShort_step hq hp hts.1) hts.2

end Places

/-- **A value that is read has short integers.** -/
theorem read?_isShort {text : String} {v : Value} (h : read? text = some v) :
    v.isShort = true := by
  obtain ⟨ts, hts, hvalue⟩ := Option.bind_eq_some_iff.1 h
  obtain ⟨p, hp, hresult⟩ := Option.bind_eq_some_iff.1 hvalue
  have hshort := Place.isShort_run hp rfl (isShort_scan hts)
  cases p with
  | after w frames =>
    rcases frames with _ | ⟨frame, frames⟩
    · obtain rfl := Option.some.inj hresult
      exact (Bool.and_eq_true_iff.1 hshort).1
    · cases hresult
  | value _ | firstItem _ | firstKey _ | key _ _ | colon _ _ _ => cases hresult

end Tabletop.Json

namespace Tabletop.Row

open Json

/-! ### Fields -/

theorem isShort_of_plainInteger? {cs : List Char} {n : Int} (h : plainInteger? cs = some n) :
    IsShort n := by
  unfold plainInteger? at h
  split at h
  · next m hm =>
    obtain rfl := Option.some.inj h
    exact of_decide_eq_true (number?_isShort hm)
  · cases h

theorem isShort_of_readIntegerText {s : String} {n : Int} (h : readIntegerText s = .ok n) :
    IsShort n := by
  unfold readIntegerText at h
  split at h
  · cases h
  split at h
  · next m hm =>
    obtain rfl := Except.ok.inj h
    obtain ⟨cs, -, hcs⟩ := Option.bind_eq_some_iff.1 hm
    exact isShort_of_plainInteger? hcs
  · cases h

theorem isShort_of_readIntegerFloat {x : Number.Binary64} {n : Int}
    (h : readIntegerFloat x = .ok n) : IsShort n := by
  unfold readIntegerFloat at h
  split at h
  · split at h
    · split at h
      · next hbound =>
        obtain rfl := Except.ok.inj h
        have hfar : floatBound ≤ 10 ^ maxWholeDigits :=
          Nat.le_trans (show floatBound ≤ 10 ^ 19 by decide)
            (Nat.pow_le_pow_right (by decide) (by decide))
        exact isShort_iff.2 (Nat.lt_of_lt_of_le hbound hfar)
      · cases h
    · cases h
  · cases h

/-- **An integer that a field gives is short**, if those of its value are. -/
theorem isShort_of_readInteger {v : Value} {n : Int} (hv : v.isShort = true)
    (h : readInteger v = .ok n) : IsShort n := by
  cases v with
  | int m =>
    obtain rfl := Except.ok.inj h
    exact of_decide_eq_true hv
  | bool b =>
    obtain rfl := Except.ok.inj h
    cases b <;> decide
  | float x => exact isShort_of_readIntegerFloat h
  | string s => exact isShort_of_readIntegerText h
  | null | array _ | object _ => cases h

end Tabletop.Row
