import SciCalc.Text.Printable

/-! Quoted texts: how messages show a text that they quote.

A quoted text stands between two equal quotation marks. Inside, the mark and the backslash
carry a backslash, and what would not print is written by its code point.
-/

namespace SciCalc.Text

/-- The mark is the single one, unless the text holds it and holds no double one. -/
def quotationMark (text : List Char) : Char :=
  if text.contains '\x27' && !text.contains '\x22' then '\x22' else '\x27'

/-- The lowercase hexadecimal digits of a number, in a fixed width. -/
def hexDigits : (width : Nat) → (n : Nat) → List Char
  | 0, _ => []
  | width + 1, n => hexDigits width (n / 16) ++ [(n % 16).digitChar]

/-- A code point as two, four or eight hexadecimal digits, the fewest that hold it. -/
def codePointEscape (n : Nat) : List Char :=
  if n ≤ 0xFF then '\\' :: 'x' :: hexDigits 2 n
  else if n ≤ 0xFFFF then '\\' :: 'u' :: hexDigits 4 n
  else '\\' :: 'U' :: hexDigits 8 n

/-- A character as it stands between the marks. -/
def escape (mark c : Char) : List Char :=
  if c = mark ∨ c = '\\' then ['\\', c]
  else if c = '\t' then ['\\', 't']
  else if c = '\n' then ['\\', 'n']
  else if c = '\r' then ['\\', 'r']
  else if isPrintable c then [c]
  else codePointEscape c.toNat

def quote (text : List Char) : List Char :=
  let mark := quotationMark text
  mark :: text.flatMap (escape mark) ++ [mark]

def quoted (text : String) : String :=
  String.ofList (quote text.toList)

end SciCalc.Text
