import Tabletop.Proofs.Json.Lexing

/-!
# Reading what was written

A JSON value that is written is read back, if it is plain, its integers are short and it is not
nested too deeply.  The tokens of
the value are known from `Tabletop.Proofs.Json.Lexing`; here they are followed through the places of
reading.

## Main definitions

* `Value.depth` — how many arrays and objects are open around the innermost part of a value.

## Main results

* `run_tokens` — the tokens of a value lead from where it may stand to behind it.
* `read?_render` — **a plain value is read as it was written.**
-/

namespace Tabletop.Json

mutual

/-- How many arrays and objects are open at most inside a value. -/
def Value.depth : Value → Nat
  | .array items => itemsDepth items + 1
  | .object members => membersDepth members + 1
  | _ => 0

def itemsDepth : List Value → Nat
  | [] => 0
  | v :: vs => max v.depth (itemsDepth vs)

def membersDepth : List (String × Value) → Nat
  | [] => 0
  | (_, v) :: ms => max v.depth (membersDepth ms)

end

/-- The tokens of a value do not end the array that has just been opened. -/
theorem run_firstItem (limit : Nat) (frames : List Frame) (v : Value) (rest : List Token) :
    (Place.firstItem frames).run limit (v.tokens ++ rest) =
      (Place.value (.items [] :: frames)).run limit (v.tokens ++ rest) := by
  cases v <;> rfl

theorem run_startValue {limit : Nat} {frames : List Frame} {t : Token} {p : Place}
    (ht : startValue limit frames t = some p) (rest : List Token) :
    (Place.value frames).run limit (t :: rest) = p.run limit rest := by
  rw [Place.run_cons]
  show (startValue limit frames t).bind _ = _
  rw [ht, Option.bind_some]

section Run

variable {limit : Nat}

/-- A token that starts a value may stand inside as many frames as the limit says. -/
theorem startValue_of_le {frames : List Frame} (h : frames.length ≤ limit) (t : Token) :
    startValue limit frames t =
      match t with
      | .atom v => some (.after v frames)
      | .text s => some (.after (.string s) frames)
      | .openArray => some (.firstItem frames)
      | .openObject => some (.firstKey frames)
      | _ => none := by
  unfold startValue
  refine (if_neg (Nat.not_lt.2 h)).trans ?_
  cases t <;> rfl

mutual

/-- **The tokens of a value lead from where it may stand to behind it.** -/
theorem run_tokens : ∀ (v : Value), v.IsPlain → ∀ (frames : List Frame) (rest : List Token),
    frames.length + v.depth ≤ limit →
      (Place.value frames).run limit (v.tokens ++ rest) = (Place.after v frames).run limit rest
  | .null, _, frames, rest, hle | .bool _, _, frames, rest, hle
  | .int _, _, frames, rest, hle | .string _, _, frames, rest, hle =>
    run_startValue (startValue_of_le hle _) rest
  | .float _, h, _, _, _ => h.elim
  | .array items, h, frames, rest, hle => by
    have hlen : frames.length ≤ limit := by omega
    have htokens : (Value.array items).tokens ++ rest =
        .openArray :: (itemTokens items ++ .closeArray :: rest) := by
      rw [Value.tokens, List.cons_append, List.append_assoc, List.singleton_append]
    rw [htokens, run_startValue (startValue_of_le hlen _)]
    rw [Value.depth] at hle
    exact run_itemTokens items h frames rest (by omega)
  | .object members, h, frames, rest, hle => by
    have hlen : frames.length ≤ limit := by omega
    have htokens : (Value.object members).tokens ++ rest =
        .openObject :: (memberTokens members ++ .closeObject :: rest) := by
      rw [Value.tokens, List.cons_append, List.append_assoc, List.singleton_append]
    rw [htokens, run_startValue (startValue_of_le hlen _)]
    rw [Value.depth] at hle
    exact run_memberTokens members h.1 h.2 frames rest (by omega)

theorem run_itemTokens : ∀ (vs : List Value), ArePlain vs → ∀ (frames : List Frame)
    (rest : List Token), frames.length + 1 + itemsDepth vs ≤ limit →
      (Place.firstItem frames).run limit (itemTokens vs ++ .closeArray :: rest) =
        (Place.after (.array vs) frames).run limit rest
  | [], _, _, _, _ => rfl
  | v :: vs, h, frames, rest, hle => by
    rw [itemsDepth] at hle
    rw [itemTokens, List.append_assoc, run_firstItem,
      run_tokens v h.1 (.items [] :: frames) _ (by rw [List.length_cons]; omega)]
    exact run_moreItemTokens vs h.2 [] v frames rest (by omega)

theorem run_moreItemTokens : ∀ (vs : List Value), ArePlain vs → ∀ (done : List Value) (v : Value)
    (frames : List Frame) (rest : List Token), frames.length + 1 + itemsDepth vs ≤ limit →
      (Place.after v (.items done :: frames)).run limit
          (moreItemTokens vs ++ .closeArray :: rest) =
        (Place.after (.array (done ++ v :: vs)) frames).run limit rest
  | [], _, _, _, _, _, _ => rfl
  | w :: vs, h, done, v, frames, rest, hle => by
    rw [itemsDepth] at hle
    have hvalue := run_tokens w h.1 (.items (done ++ [v]) :: frames)
      (moreItemTokens vs ++ .closeArray :: rest) (by rw [List.length_cons]; omega)
    have hmore := run_moreItemTokens vs h.2 (done ++ [v]) w frames rest (by omega)
    rw [List.append_assoc, List.singleton_append] at hmore
    rw [moreItemTokens, List.cons_append, List.append_assoc, ← hmore, ← hvalue]
    rfl

theorem run_memberTokens : ∀ (ms : List (String × Value)), (ms.map Prod.fst).Nodup →
    HavePlain ms → ∀ (frames : List Frame) (rest : List Token),
    frames.length + 1 + membersDepth ms ≤ limit →
      (Place.firstKey frames).run limit (memberTokens ms ++ .closeObject :: rest) =
        (Place.after (.object ms) frames).run limit rest
  | [], _, _, _, _, _ => rfl
  | (k, v) :: ms, hkeys, h, frames, rest, hle => by
    rw [membersDepth] at hle
    have hvalue := run_tokens v h.1 (.member [] k :: frames)
      (moreMemberTokens ms ++ .closeObject :: rest) (by rw [List.length_cons]; omega)
    have hmore := run_moreMemberTokens ms h.2 [] k v frames rest hkeys (by omega)
    rw [List.nil_append] at hmore
    rw [memberTokens, List.cons_append, List.cons_append, List.append_assoc, ← hmore, ← hvalue]
    rfl

theorem run_moreMemberTokens : ∀ (ms : List (String × Value)), HavePlain ms →
    ∀ (done : List (String × Value)) (k : String) (v : Value) (frames : List Frame)
      (rest : List Token), ((done ++ (k, v) :: ms).map Prod.fst).Nodup →
    frames.length + 1 + membersDepth ms ≤ limit →
      (Place.after v (.member done k :: frames)).run limit
          (moreMemberTokens ms ++ .closeObject :: rest) =
        (Place.after (.object (done ++ (k, v) :: ms)) frames).run limit rest
  | ms, h, done, k, v, frames, rest, hkeys, hle => by
    -- The key is new, so the member goes to the end of those that are complete.
    have hnew : k ∉ done.map Prod.fst := by
      rw [List.map_append, List.map_cons, List.nodup_append] at hkeys
      exact fun hk => hkeys.2.2 k hk k List.mem_cons_self rfl
    have hwrite := InsertionMap.write_of_notMem hnew v
    match ms, h, hkeys, hle with
    | [], _, _, _ =>
      show (Place.after (.object (InsertionMap.write k v done)) frames).run limit rest = _
      rw [hwrite]
    | (k', w) :: ms, h, hkeys, hle =>
      rw [membersDepth] at hle
      have hvalue := run_tokens w h.1 (.member (done ++ [(k, v)]) k' :: frames)
        (moreMemberTokens ms ++ .closeObject :: rest) (by rw [List.length_cons]; omega)
      have hmore := run_moreMemberTokens ms h.2 (done ++ [(k, v)]) k' w frames rest
        (by rw [List.append_assoc]; exact hkeys) (by omega)
      rw [List.append_assoc, List.singleton_append] at hmore
      rw [moreMemberTokens, List.cons_append, List.cons_append, List.cons_append,
        List.append_assoc, ← hmore, ← hvalue, ← hwrite]
      rfl

end

end Run

/-- **A plain value is read as it was written**, unless it is nested too deeply.  If an integer in
it is too long, the text is no JSON text that can be read. -/
theorem read?_render {v : Value} (hv : v.IsPlain) (hdepth : v.depth ≤ maxNesting) :
    read? v.render = if v.isShort then some v else none := by
  have hrun : (Place.value []).run maxNesting (v.tokens ++ []) =
      (Place.after v []).run maxNesting [] :=
    run_tokens v hv [] [] (by rw [List.length_nil, Nat.zero_add]; exact hdepth)
  rw [List.append_nil] at hrun
  rw [read?, readWithin?, tokens?_render hv]
  cases v.isShort with
  | true =>
    rw [if_pos rfl, if_pos rfl, Option.bind_some, ofTokens?, hrun]
    rfl
  | false => rfl

end Tabletop.Json
