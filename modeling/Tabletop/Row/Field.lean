import Tabletop.Effect
import Tabletop.Json.Token
import Tabletop.Text.Blank

/-!
# Fields of rows

Rows, stored turn orders and settings consist of fields with a type and bounds.  Reading a field is
lenient about integers: truth values, numbers without a fraction and numerals in texts also count.
Every field that does not fit gives one fault, and all faults are reported together.

## Main definitions

* `FaultKind`, `FieldFault` — what does not fit, and where.
* `Checked`, `both` — a result or all the faults.
* `plain?` — the plain form of a numeral.
* `readInteger`, `readText` — lenient integers, and texts of bounded length.
* `required`, `optional` — a field that must be there, and one with a default.

## Main results

* `both_eq_ok`, `required_eq_ok`, `ne_empty_of_readText` — what holds of a result without faults.
* `required_of_read`, `optional_of_read` — fields without faults.
-/

namespace Tabletop.Row

open Json Number

/-- Why a field does not fit. -/
inductive FaultKind where
  /-- The field is not there. -/
  | missing
  /-- The value is no text. -/
  | textType
  /-- The text is too short. -/
  | textTooShort
  /-- The text is too long. -/
  | textTooLong
  /-- The value is nothing that could be an integer. -/
  | integerType
  /-- The text is no numeral. -/
  | integerParsing
  /-- The integer is too large to be read. -/
  | integerSize
  /-- The number has a fraction. -/
  | integerFraction
  /-- The number is not finite. -/
  | notFinite
  /-- The number is too small. -/
  | tooSmall
  /-- The number is too large. -/
  | tooLarge
  /-- The text is no truth value. -/
  | truthParsing
  /-- The value is nothing that could be a moment. -/
  | momentType
  /-- The number is no moment, or the moment is not in the calendar. -/
  | momentRange
  /-- The text is neither a moment nor a day. -/
  | momentParsing
  /-- The value is no list. -/
  | listType
  /-- The value is no object. -/
  | objectType
  deriving DecidableEq, Repr

/-- A field that does not fit. -/
structure FieldFault where
  /-- The name of the field. -/
  field : String
  /-- Why it does not fit. -/
  kind : FaultKind
  deriving DecidableEq, Repr

/-- A result, or all the faults. -/
abbrev Checked (α : Type) := Except (List FieldFault) α

/-- Two checked results; the faults of both are kept. -/
def both {α β : Type} (a : Checked α) (b : Checked β) : Checked (α × β) :=
  match a, b with
  | .ok a, .ok b => .ok (a, b)
  | .ok _, .error e => .error e
  | .error e, .ok _ => .error e
  | .error e, .error e' => .error (e ++ e')

/-- A required field, read in a given way. -/
def required {α : Type} (read : Value → Except FaultKind α) (members : List (String × Value))
    (name : String) : Checked α :=
  match field? members name with
  | none => .error [⟨name, .missing⟩]
  | some v => (read v).mapError fun kind => [⟨name, kind⟩]

/-- A field that may be left out, read in a given way. -/
def optional {α : Type} (default : α) (read : Value → Except FaultKind α)
    (members : List (String × Value)) (name : String) : Checked α :=
  match field? members name with
  | none => .ok default
  | some v => (read v).mapError fun kind => [⟨name, kind⟩]

/-! ### Results without faults -/

/-- Two results together have no fault if none of them has. -/
theorem both_eq_ok {α β : Type} {a : Checked α} {b : Checked β} {p : α × β} (h : both a b = .ok p) :
    a = .ok p.1 ∧ b = .ok p.2 := by
  rcases a with e | x
  · rcases b with e' | y
    · cases h
    · cases h
  · rcases b with e' | y
    · cases h
    · obtain rfl := Except.ok.inj h
      exact ⟨rfl, rfl⟩

/-- A required field without fault is there, and it can be read. -/
theorem required_eq_ok {α : Type} {read : Value → Except FaultKind α}
    {members : List (String × Value)} {name : String} {a : α}
    (h : required read members name = .ok a) :
    ∃ v, field? members name = some v ∧ read v = .ok a := by
  unfold required at h
  split at h
  · cases h
  · next v hv => exact ⟨v, hv, Except.mapError_eq_ok h⟩

/-- A field that is there and can be read has no fault. -/
theorem required_of_read {α : Type} {read : Value → Except FaultKind α}
    {members : List (String × Value)} {name : String} {v : Value} {a : α}
    (hv : field? members name = some v) (ha : read v = .ok a) :
    required read members name = .ok a := by
  simp only [required, hv, ha]
  rfl

/-- The same holds of a field that might have been left out. -/
theorem optional_of_read {α : Type} {default : α} {read : Value → Except FaultKind α}
    {members : List (String × Value)} {name : String} {v : Value} {a : α}
    (hv : field? members name = some v) (ha : read v = .ok a) :
    optional default read members name = .ok a := by
  simp only [optional, hv, ha]
  rfl

/-! ### Integers -/

/-- Whether a character is white space. -/
def isWhiteSpace (c : Char) : Bool :=
  Text.isBlank c && !(decide (0x1C ≤ c.toNat) && decide (c.toNat ≤ 0x1F))

/-- A numeral without its leading zeros and the underscores among them.  Of zeros alone, or in
front of a point, the last is kept.  A numeral must start with a digit. -/
def withoutLeadingZeros? (cs : List Char) : Option (List Char) :=
  match cs with
  | '0' :: _ =>
    let zeros := cs.takeWhile fun c => c == '0' || c == '_'
    match cs.dropWhile fun c => c == '0' || c == '_' with
    | [] => some zeros.getLast?.toList
    | '.' :: rest => some (zeros.getLast?.toList ++ '.' :: rest)
    | rest => some rest
  | c :: _ => if c.isDigit then some cs else none
  | [] => none

/-- A numeral without the point and the zeros that may end it. -/
def withoutZeroFraction (cs : List Char) : List Char :=
  match cs.dropWhile (· != '.') with
  | '.' :: zeros =>
    if !zeros.isEmpty && zeros.all (· == '0') then cs.takeWhile (· != '.') else cs
  | _ => cs

/-- A numeral without its underscores, if none is at an end and none beside another. -/
def withoutUnderscores? (cs : List Char) : Option (List Char) :=
  if cs.head? = some '_' || cs.getLast? = some '_' || (cs.zip cs.tail).contains ('_', '_') then none
  else some (cs.filter (· != '_'))

/-- A numeral without sign in its plain form. -/
def plainNumeral? (cs : List Char) : Option (List Char) :=
  (withoutLeadingZeros? cs).bind fun cs => withoutUnderscores? (withoutZeroFraction cs)

/-- A numeral in its plain form, in which only a minus sign is written. -/
def plain? (cs : List Char) : Option (List Char) :=
  match cs with
  | '-' :: rest => (plainNumeral? rest).map ('-' :: ·)
  | '+' :: rest => plainNumeral? rest
  | _ => plainNumeral? cs

/-- The integer that a numeral in its plain form writes. -/
def plainInteger? (cs : List Char) : Option Int :=
  match number? cs with
  | some (.int n) => some n
  | _ => none

/-- Whether a text starts, without blanks or needless zeros, with more digits than an integer may
have. -/
def startsTooLong (cs : List Char) : Bool :=
  let whole := (if cs.head? = some '-' then cs.tail else cs).takeWhile Char.isDigit
  isWhole whole && decide (maxWholeDigits < whole.length)

/-- The integer in a text: blanks around it, a sign, leading zeros, underscores between digits and
a fraction of zeros are allowed.  A minus sign may also stand behind leading zeros.  The plain form
has a bounded number of digits; a text that has too many as it stands has a fault of its own. -/
def readIntegerText (s : String) : Except FaultKind Int :=
  if startsTooLong s.toList then .error .integerSize
  else
    match (plain? (Text.trimWhere isWhiteSpace s.toList)).bind plainInteger? with
    | some n => .ok n
    | none => .error .integerParsing

/-- The bound on the size of a number that was written with a fraction or an exponent. -/
def floatBound : Nat := Nat.pow 2 63

/-- The integer that a floating-point number is. -/
def readIntegerFloat (x : Binary64) : Except FaultKind Int :=
  if x.isFinite then
    match x.toInt? with
    | some n => if n.natAbs < floatBound then .ok n else .error .integerSize
    | none => .error .integerFraction
  else .error .notFinite

/-- A lenient integer. -/
def readInteger : Value → Except FaultKind Int
  | .int n => .ok n
  | .bool b => .ok (if b then 1 else 0)
  | .float x => readIntegerFloat x
  | .string s => readIntegerText s
  | _ => .error .integerType

/-- A lenient integer that is not below a bound. -/
def readAtLeast (low : Int) (v : Value) : Except FaultKind Int := do
  let n ← readInteger v
  if n < low then .error .tooSmall else .ok n

/-- A lenient integer between two bounds. -/
def readBetween (low high : Int) (v : Value) : Except FaultKind Int := do
  let n ← readAtLeast low v
  if high < n then .error .tooLarge else .ok n

/-- A lenient integer that is not negative. -/
def readNatural (v : Value) : Except FaultKind Nat := (readAtLeast 0 v).map Int.toNat

/-! ### Texts -/

/-- A text with at least and, if there is a bound, at most so many characters. -/
def readText (least : Nat) (most : Option Nat) : Value → Except FaultKind String
  | .string s =>
    if s.length < least then .error .textTooShort
    else
      match most with
      | some n => if n < s.length then .error .textTooLong else .ok s
      | none => .ok s
  | _ => .error .textType

/-- A text of at least one character is not empty. -/
theorem ne_empty_of_readText {v : Value} {most : Option Nat} {s : String}
    (h : readText 1 most v = .ok s) : s ≠ "" := by
  rintro rfl
  cases v with
  | string t =>
    simp only [readText] at h
    split at h
    · cases h
    · next hlength =>
      have ht : t = "" := by
        split at h
        · split at h
          · cases h
          · exact Except.ok.inj h
        · exact Except.ok.inj h
      rw [ht] at hlength
      exact hlength (by decide)
  | null | bool _ | int _ | float _ | array _ | object _ => cases h

end Tabletop.Row
