/-!
# What changes a state and may be refused

Dice are taken from a supply, commands change a game, and queries change a table.  Each of these may
be refused on the way, and what it has changed until then stays changed.

## Main definitions

* `Effect` — what changes a state and may be refused.

## Main results

* `Effect.bind_of_ok`, `Effect.bind_of_error` — one effect after another.
* `Effect.map_apply` — an effect whose answer is changed.
* `Except.map_eq_ok`, `Except.mapError_eq_ok` — what has been a result before it was changed.
-/

namespace Except

variable {ε ε' α β : Type}

/-- What is changed to a result has been a result. -/
theorem map_eq_ok {f : α → β} {r : Except ε α} {b : β} (h : r.map f = .ok b) :
    ∃ a, r = .ok a ∧ f a = b := by
  rcases r with e | a
  · cases h
  · exact ⟨a, rfl, Except.ok.inj h⟩

/-- Changing the errors leaves a result as it is. -/
theorem mapError_eq_ok {f : ε → ε'} {r : Except ε α} {a : α} (h : r.mapError f = .ok a) :
    r = .ok a := by
  rcases r with e | b
  · cases h
  · obtain rfl : b = a := Except.ok.inj h
    rfl

end Except

namespace Tabletop

/-- What changes a state and may be refused. -/
abbrev Effect (ε σ : Type) := ExceptT ε (StateM σ)

namespace Effect

variable {ε σ α β : Type}

/-- The second of two effects works on what the first has left. -/
theorem bind_of_ok {first : Effect ε σ α} {a : α} {s s' : σ} (h : first s = (.ok a, s'))
    (second : α → Effect ε σ β) : (first >>= second) s = second a s' := by
  simp only [bind, ExceptT.bind, ExceptT.mk, ExceptT.bindCont, StateT.bind, h]

/-- If the first of two effects is refused, so are both. -/
theorem bind_of_error {first : Effect ε σ α} {e : ε} {s s' : σ} (h : first s = (.error e, s'))
    (second : α → Effect ε σ β) : (first >>= second) s = (.error e, s') := by
  simp only [bind, ExceptT.bind, ExceptT.mk, ExceptT.bindCont, StateT.bind, h]
  rfl

/-- The answer of an effect may be changed behind it. -/
theorem map_apply (f : α → β) (effect : Effect ε σ α) (s : σ) :
    (f <$> effect) s = ((effect s).1.map f, (effect s).2) := by
  rcases h : effect s with ⟨e | a, s'⟩
  · simp only [Functor.map, ExceptT.map, ExceptT.mk, StateT.bind, bind, h]
    rfl
  · simp only [Functor.map, ExceptT.map, ExceptT.mk, StateT.bind, bind, h]
    rfl

end Effect

end Tabletop
