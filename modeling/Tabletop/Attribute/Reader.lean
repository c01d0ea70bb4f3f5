import Tabletop.Attribute.Alias
import Tabletop.Attribute.Pair

/-!
# Reading directives

A directive is free text.  It may name a card before a double dash.  Bars divide the rest into
segments and blanks divide a segment into words.  A word is read as the first of these that it is:

* what a character generator printed, as in `力量STR=3D6*5=60/30/12`: the number behind the second
  equals sign is set;
* a word with an equals sign, a slash or an asterisk: it says nothing;
* a name: the number in the next word is set, if the next word is an integer;
* names with amounts, as in `hp+1d6` or `力量60敏捷40`.

Words that are none of these are passed over, so that a pasted sheet gives what can be understood.

## Main definitions

* `cardAndRest` — the card that a text names and what follows.
* `generated?` — what a character generator printed.
* `readWords` — the operations of a segment.
* `readDirective` — the directive of a text.

## Main results

* `readSegments_append_cons` — a bar divides the operations.
-/

namespace Tabletop.Attribute

open Text

/-! ### The card -/

/-- What stands before the first double dash that has text on both sides, and what follows it. -/
def splitDash (before : List Char) : List Char → Option (List Char × List Char)
  | [] => none
  | c :: rest =>
    match rest with
    -- The text behind the dashes may start with a dash itself.
    | '-' :: after :: more =>
      if !before.isEmpty && c == '-' then some (before, after :: more)
      else splitDash (before ++ [c]) rest
    | _ => splitDash (before ++ [c]) rest

/-- The card that a trimmed text names, if it does, and the text about its attributes. -/
def cardAndRest (cs : List Char) : Option (List Char) × List Char :=
  match splitDash [] cs with
  | some (card, rest) => (some (trimChars card), trimChars rest)
  | none => (none, cs)

/-! ### Words -/

/-- The numeral behind the first equals sign that is followed by one. -/
def numeralAfterEquals? : List Char → Option (List Char)
  | [] => none
  | c :: rest =>
    if c = '=' && isNumeral (rest.takeWhile isDigit) then some (rest.takeWhile isDigit)
    else numeralAfterEquals? rest

/-- The name and the value in what a character generator printed: ideographs, capitals, a first
equals sign, anything, and a further equals sign with a numeral. -/
def generated? (cs : List Char) : Option (List Char × List Char) :=
  let name := cs.takeWhile isIdeograph
  if name.isEmpty then none
  else
    match (cs.dropWhile isIdeograph).dropWhile isCapital with
    | '=' :: rest => (numeralAfterEquals? rest).map fun digits => (name, digits)
    | _ => none

/-- Whether a word is passed over because it shows a calculation. -/
def isCalculation (cs : List Char) : Bool := cs.any fun c => c == '=' || c == '/' || c == '*'

/-- Whether a word is a name. -/
def isName (cs : List Char) : Bool := !cs.isEmpty && cs.all isNameChar

/-- The value of a word that is an integer: a numeral that may have a sign. -/
def integer? (cs : List Char) : Option Int :=
  match cs with
  | '-' :: digits =>
    if isNumeral digits && digits.all isDigit then some (-(numeralValue digits : Int)) else none
  | '+' :: digits =>
    if isNumeral digits && digits.all isDigit then some (numeralValue digits) else none
  | digits =>
    if isNumeral digits && digits.all isDigit then some (numeralValue digits) else none

/-- The operation that sets an attribute to a number. -/
def setTo (aliases : AliasTable) (name : List Char) (n : Int) : Operation :=
  ⟨aliases.normalize (String.ofList name), .set, .literal n⟩

/-- The operation of a name with its amount. -/
def Pair.operation (aliases : AliasTable) (p : Pair) : Operation :=
  ⟨aliases.normalize (String.ofList p.name), p.kind, p.amount⟩

/-- The operations of a word that is neither generated, nor a calculation, nor a name. -/
def readPairs (aliases : AliasTable) (word : List Char) : List Operation :=
  ((pairs? word).getD []).map (Pair.operation aliases)

/-- A word that is no pair says nothing. -/
theorem readPairs_of_none {word : List Char} (h : pairs? word = none) (aliases : AliasTable) :
    readPairs aliases word = [] := by
  rw [readPairs, h]
  rfl

/-- The operations of the words of a segment. -/
def readWords (aliases : AliasTable) : List (List Char) → List Operation
  | [] => []
  | word :: rest =>
    match generated? word with
    | some (name, digits) =>
      setTo aliases name (numeralValue digits) :: readWords aliases rest
    | none =>
      if isCalculation word then readWords aliases rest
      else if isName word then
        -- A name takes the next word if that is an integer; otherwise only the name is passed over.
        match rest with
        | [] => []
        | next :: rest' =>
          match integer? next with
          | some n => setTo aliases word n :: readWords aliases rest'
          | none => readWords aliases (next :: rest')
      else readPairs aliases word ++ readWords aliases rest

/-! ### Texts -/

/-- The operations of a text without a card. -/
def readSegments (aliases : AliasTable) (cs : List Char) : List Operation :=
  (splitWhere (· == '|') cs).flatMap fun segment => readWords aliases (words segment)

/-- A bar divides the operations. -/
theorem readSegments_append_cons (aliases : AliasTable) (before after : List Char) :
    readSegments aliases (before ++ '|' :: after) =
      readSegments aliases before ++ readSegments aliases after := by
  unfold readSegments
  rw [splitWhere_append_cons (by rfl), List.flatMap_append]

/-- The directive of a text.  Reading never fails. -/
def readDirective (aliases : AliasTable) (text : String) : Directive :=
  let (card, rest) := cardAndRest (trimChars text.toList)
  ⟨card.map String.ofList, readSegments aliases rest⟩

end Tabletop.Attribute
