import Tabletop.Text.Printable

/-!
# Quoted texts

A message shows a text of the user between quotes.  Single quotes are taken unless the text holds
one and no double quote.  The quote that is taken, the backslash, tab, line feed and carriage
return are written with a backslash; another character that is not printable by the shortest of
the three numeric escapes that can hold its code.

## Main definitions

* `quoteFor` — the quote that is taken.
* `escapeChar` — how one character is written between quotes.
* `quoted` — the quoted text; `quotedOrNone` also has a spelling for no text.
-/

namespace Tabletop.Text

/-- The single quote. -/
def singleQuote : Char := '\x27'

/-- The quote around a text: double exactly if the text holds single quotes only. -/
def quoteFor (cs : List Char) : Char :=
  if cs.contains singleQuote && !cs.contains '"' then '"' else singleQuote

/-- The lower-case hexadecimal digits of a number, filled up with zeros to a width. -/
def hexDigits (width n : Nat) : List Char :=
  let digits := Nat.toDigits 16 n
  List.replicate (width - digits.length) '0' ++ digits

/-- The numeric escape of a character, with two, four or eight digits. -/
def numericEscape (c : Char) : List Char :=
  if c.toNat < 0x100 then '\\' :: 'x' :: hexDigits 2 c.toNat
  else if c.toNat < 0x10000 then '\\' :: 'u' :: hexDigits 4 c.toNat
  else '\\' :: 'U' :: hexDigits 8 c.toNat

/-- One character as it is written between two of the given quotes. -/
def escapeChar (quote c : Char) : List Char :=
  if c = quote || c = '\\' then ['\\', c]
  else if c = '\t' then ['\\', 't']
  else if c = '\n' then ['\\', 'n']
  else if c = '\r' then ['\\', 'r']
  else if isPrintable c then [c]
  else numericEscape c

/-- The text between quotes. -/
def quoted (s : String) : String :=
  let quote := quoteFor s.toList
  String.ofList (quote :: s.toList.flatMap (escapeChar quote) ++ [quote])

/-- The text between quotes, or `None` when there is none. -/
def quotedOrNone : Option String → String
  | some s => quoted s
  | none => "None"

end Tabletop.Text
