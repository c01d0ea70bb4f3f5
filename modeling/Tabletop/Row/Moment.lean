import Tabletop.Row.Field

/-!
# Moments in rows

A row may say when it was last written.  The moment is a day and a time of day, `2024-05-01T12:30`
with optional seconds and an optional distance from universal time, or a day alone, or the number
of seconds (or, if large, milliseconds) since 1970.  Years are written from 0 on, but the calendar
starts with year 1.  Only whether there is a moment is kept.

## Main definitions

* `Era` — whether a moment that is written well is in the calendar.
* `dayEra?`, `timestampEra?`, `textEra?` — the eras of days, of timestamps and of texts.
* `isTimeOfDay` — the texts that are times of day.
* `readMoment` — a field with an optional moment; the result says whether there is one.
-/

namespace Tabletop.Row

open Json Number

/-- The number that exactly so many digits at the start of a text write, and the rest. -/
def takeDigits (count : Nat) (cs : List Char) : Option (Nat × List Char) :=
  let digits := cs.take count
  if digits.length = count ∧ digits.all Char.isDigit then
    some (Text.numeralValue digits, cs.drop count)
  else none

/-- The number of days of a month. -/
def daysOfMonth (year month : Nat) : Nat :=
  if month = 2 then
    if year % 4 = 0 ∧ (year % 100 ≠ 0 ∨ year % 400 = 0) then 29 else 28
  else if month = 4 ∨ month = 6 ∨ month = 9 ∨ month = 11 then 30
  else 31

/-- Where a moment lies that is written well. -/
inductive Era where
  /-- In the year before the calendar starts. -/
  | yearZero
  /-- In the calendar. -/
  | calendar
  deriving DecidableEq, Repr

/-- The era of a day at the start of a text, and the rest behind it. -/
def dayEra? (cs : List Char) : Option (Era × List Char) :=
  match takeDigits 4 cs with
  | some (year, '-' :: rest) =>
    match takeDigits 2 rest with
    | some (month, '-' :: rest) =>
      match takeDigits 2 rest with
      | some (day, rest) =>
        if 1 ≤ month ∧ month ≤ 12 ∧ 1 ≤ day ∧ day ≤ daysOfMonth year month then
          some (if year = 0 then .yearZero else .calendar, rest)
        else none
      | none => none
    | _ => none
  | _ => none

/-- The rest behind an hour and a minute at the start of a text, with or without a colon. -/
def afterMinute? (colon : Bool) (cs : List Char) : Option (List Char) :=
  match takeDigits 2 cs with
  | some (hour, rest) =>
    let rest? := if colon then (if rest.head? = some ':' then some rest.tail else none)
      else some rest
    match rest?.bind (takeDigits 2) with
    | some (minute, rest) => if hour ≤ 23 ∧ minute ≤ 59 then some rest else none
    | none => none
  | none => none

/-- Whether a text is a distance from universal time, or empty.  The minus sign may be a hyphen or
the sign of mathematics. -/
def isOffset (cs : List Char) : Bool :=
  match cs with
  | [] => true
  | ['Z'] => true
  | ['z'] => true
  | c :: rest =>
    (c == '+' || c == '-' || c == '−') &&
      (afterMinute? true rest == some [] || afterMinute? false rest == some [])

/-- Whether a text is a fraction of a second behind its mark, and a distance. -/
def isFraction (cs : List Char) : Bool :=
  !(cs.takeWhile Char.isDigit).isEmpty && isOffset (cs.dropWhile Char.isDigit)

/-- Whether a text is a time of day with an optional distance from universal time. -/
def isTimeOfDay (cs : List Char) : Bool :=
  match afterMinute? true cs with
  | some (':' :: rest) =>
    match takeDigits 2 rest with
    | some (second, rest) =>
      decide (second ≤ 59) &&
        match rest with
        | '.' :: fraction => isFraction fraction
        | ',' :: fraction => isFraction fraction
        | _ => isOffset rest
    | none => false
  | some rest => isOffset rest
  | none => false

/-- The last second of the year 9999. -/
def lastSecond : Int := 253402300799

/-- The first second of the year 1. -/
def firstSecond : Int := -62135596800

/-- The first second of the year 0. -/
def firstSecondOfYearZero : Int := -62167219200

/-- Numbers above this size count milliseconds. -/
def maxSeconds : Nat := 20000000000

/-- The era of so many seconds or milliseconds since 1970. -/
def timestampEra? (n : Int) : Option Era :=
  let seconds := if n.natAbs ≤ maxSeconds then n else n / 1000
  if lastSecond < seconds then none
  else if firstSecond ≤ seconds then some .calendar
  else if firstSecondOfYearZero ≤ seconds then some .yearZero
  else none

/-- The bound on the whole part of a number of seconds or milliseconds. -/
def timestampBound : Nat := Nat.pow 2 63

/-- The greatest integer that is not above the number in a text.  The number is written with an
optional sign, at least one digit and at most one point; only behind a point may it have an
exponent. -/
def timestamp? (cs : List Char) : Option Int :=
  match cs with
  | '-' :: rest => floor? true rest
  | '+' :: rest => floor? false rest
  | _ => floor? false cs
where
  /-- The same for the text behind the sign. -/
  floor? (negative : Bool) (cs : List Char) : Option Int :=
    let whole := cs.takeWhile Char.isDigit
    let n := Text.numeralValue whole
    if timestampBound ≤ n then none
    else
      match cs.dropWhile Char.isDigit with
      | [] => if whole.isEmpty then none else some (if negative then -(n : Int) else n)
      | '.' :: rest =>
        let fraction := rest.takeWhile Char.isDigit
        if whole.isEmpty && fraction.isEmpty then none
        else
          (exponent? (rest.dropWhile Char.isDigit)).bind fun e =>
            (Binary64.ofDecimal negative (Text.numeralValue (whole ++ fraction))
              (e - fraction.length)).floor?
      | _ => none

/-- Whether a character may stand between a day and a time. -/
def isDayEnd (c : Char) : Bool := c == 'T' || c == 't' || c == ' ' || c == '_'

/-- The era of the moment that a text writes. -/
def textEra? (cs : List Char) : Option Era :=
  match dayEra? cs with
  | some (era, []) => some era
  | some (era, c :: rest) => if isDayEnd c && isTimeOfDay rest then some era else none
  | none => (timestamp? cs).bind timestampEra?

/-- A number of seconds or milliseconds; it must be a moment in the calendar. -/
def readTimestamp (n : Int) : Except FaultKind Bool :=
  if timestampEra? n = some .calendar then .ok true else .error .momentRange

/-- A field that may hold a moment, and whether it does. -/
def readMoment : Value → Except FaultKind Bool
  | .null => .ok false
  | .string s =>
    match textEra? s.toList with
    | some .calendar => .ok true
    | some .yearZero => .error .momentRange
    | none => .error .momentParsing
  | .int n =>
    -- An integer beyond all floating-point numbers does not count as a number of seconds.
    if (Binary64.ofDecimal (decide (n < 0)) n.natAbs 0).isFinite then readTimestamp n
    else .error .momentType
  | .float x =>
    match x.floor? with
    | some n => readTimestamp n
    | none => .error .momentRange
  | _ => .error .momentType

end Tabletop.Row
