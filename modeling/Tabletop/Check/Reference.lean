import Tabletop.Error

/-!
# Bounds of reference values

A value to roll against may not be negative, and zero only where that is allowed.

## Main definitions

* `refuseBelow` — refuses a number below the bound.
-/

namespace Tabletop.Check

/-- Refuses a number below zero, and zero unless it is allowed; `shown` is how it is shown. -/
def refuseBelow (allowZero : Bool) (n : Int) (shown : String) : Except Error Unit :=
  if n < 0 ∨ (n = 0 ∧ ¬allowZero) then .error (.range (.reference shown)) else .ok ()

end Tabletop.Check
