/-
Values that are given as texts: truth values by a word, numbers by their digits. Only the digits
from zero to nine count; white space may stand around a number, and an underscore between two
digits.
-/
import ServiceModel.Double.Read
import ServiceModel.Text.Split

namespace ServiceModel.Service.Spelling

open ServiceModel.Text (isSpace)

/-! ## Truth values -/

/-- The words for truth values. -/
def flagWords : List (String × Bool) :=
  [("0", false), ("off", false), ("f", false), ("false", false), ("n", false), ("no", false),
    ("1", true), ("on", true), ("t", true), ("true", true), ("y", true), ("yes", true)]

/-- The truth value of a word, in any case. -/
def flag? (s : String) : Option Bool :=
  flagWords.lookup (String.ofList (s.toList.map Char.toLower))

/-! ## Numbers -/

/-- White space around a number; the information separators are none. -/
def isWhite (c : Char) : Bool := isSpace c && !(28 ≤ c.toNat && c.toNat ≤ 31)

/-- The number without the white space around it. -/
def trim (text : List Char) : List Char := Text.trimWhere isWhite text

/-- The text without its underscores, if it has some, and none at an end or beside another. -/
def withoutUnderscores? (text : List Char) : Option (List Char) :=
  let pieces := Text.cut '_' text
  if pieces.length = 1 || pieces.contains [] then none else some pieces.flatten

/-- A whole number without the zeros in front, among which any count of underscores may stand. Of
zeros alone the last character is kept. -/
def afterZeros : List Char → List Char
  | '0' :: rest =>
    match rest.dropWhile fun c => c == '0' || c == '_' with
    | [] => [rest.getLast?.getD '0']
    | more => more
  | text => text

/-- A whole number without a sign, behind whose point zeros may stand. -/
def magnitude? (text : List Char) : Option Nat :=
  match text.span (· ≠ '.') with
  | (whole, []) => Text.Numeral.digits 10 (afterZeros whole)
  | (whole, _ :: fraction) =>
    if fraction.isEmpty || fraction.any (· ≠ '0') then none
    else Text.Numeral.digits 10 (afterZeros whole)

/-- The integer that a text spells. -/
def int? (s : String) : Option Int := do
  match trim s.toList with
  | '-' :: rest => return -(← magnitude? rest)
  | '+' :: rest => return (← magnitude? rest)
  | rest => return (← magnitude? rest)

/-- The double precision number that a text spells. Underscores are left out only if there is no
number otherwise. -/
def double? (s : String) : Option Double :=
  let text := s.toList
  (Double.readSigned? (trim text)).or
    ((withoutUnderscores? text).bind fun t => Double.readSigned? (trim t))

end ServiceModel.Service.Spelling
