/-
A text as it is shown inside a message: between quotes, with characters that have no glyph of
their own spelled out. Single quotes are used unless the text holds one and no double quote.
-/
import ServiceModel.Text.PrintableTable

namespace ServiceModel.Text

/-- Characters shown as they are. -/
def isPrintable (c : Char) : Bool :=
  if c.toNat < 127 then 32 ≤ c.toNat
  else !PrintableTable.hidden.any fun (first, last) => first ≤ c.toNat && c.toNat ≤ last

/-- One digit in base sixteen. -/
def hexDigit (n : Nat) : Char :=
  if n < 10 then Char.ofNat (48 + n) else Char.ofNat (87 + n)

/-- A number in base sixteen with the given count of digits. -/
def hexDigits : Nat → Nat → List Char
  | 0, _ => []
  | count + 1, n => hexDigits count (n / 16) ++ [hexDigit (n % 16)]

namespace Quoted

/-- One character between the quotes `mark`. -/
def showChar (mark : Char) (c : Char) : List Char :=
  if c = mark || c = '\\' then ['\\', c]
  else if c = '\n' then ['\\', 'n']
  else if c = '\t' then ['\\', 't']
  else if c = '\r' then ['\\', 'r']
  else if isPrintable c then [c]
  else if c.toNat < 0x100 then '\\' :: 'x' :: hexDigits 2 c.toNat
  else if c.toNat < 0x10000 then '\\' :: 'u' :: hexDigits 4 c.toNat
  else '\\' :: 'U' :: hexDigits 8 c.toNat

/-- The quote that spares the most escapes. -/
def mark (text : List Char) : Char :=
  if text.contains '\'' && !text.contains '"' then '"' else '\''

end Quoted

/-- The text between quotes. -/
def quoted (text : String) : String :=
  let mark := Quoted.mark text.toList
  String.ofList (mark :: text.toList.flatMap (Quoted.showChar mark) ++ [mark])

end ServiceModel.Text
