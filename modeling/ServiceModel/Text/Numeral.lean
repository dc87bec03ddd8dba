/-
Reading a text as an integer. Decimal digits of every script count, white space may stand around
the number, a sign before it, and single underscores between its digits.
-/
namespace ServiceModel.Text

/-- The zeros of the decimal digits of Unicode 15; the other nine follow each of them. -/
def digitZeros : List Nat := [
  0x30, 0x660, 0x6f0, 0x7c0, 0x966, 0x9e6, 0xa66, 0xae6, 0xb66, 0xbe6, 0xc66, 0xce6, 0xd66, 0xde6,
  0xe50, 0xed0, 0xf20, 0x1040, 0x1090, 0x17e0, 0x1810, 0x1946, 0x19d0, 0x1a80, 0x1a90, 0x1b50,
  0x1bb0, 0x1c40, 0x1c50, 0xa620, 0xa8d0, 0xa900, 0xa9d0, 0xa9f0, 0xaa50, 0xabf0, 0xff10, 0x104a0,
  0x10d30, 0x11066, 0x110f0, 0x11136, 0x111d0, 0x112f0, 0x11450, 0x114d0, 0x11650, 0x116c0,
  0x11730, 0x118e0, 0x11950, 0x11c50, 0x11d50, 0x11da0, 0x11f50, 0x16a60, 0x16ac0, 0x16b50,
  0x1d7ce, 0x1d7d8, 0x1d7e2, 0x1d7ec, 0x1d7f6, 0x1e140, 0x1e2f0, 0x1e4f0, 0x1e950, 0x1fbf0]

/-- The value of a decimal digit of any script. -/
def digit? (c : Char) : Option Nat :=
  if c.isDigit then some (c.toNat - '0'.toNat)
  else if c.toNat < 128 then none
  else (digitZeros.find? fun z => z ≤ c.toNat && c.toNat < z + 10).map (c.toNat - ·)

/-- White space, the four information separators included. -/
def isSpace (c : Char) : Bool :=
  let n := c.toNat
  (9 ≤ n && n ≤ 13) || (28 ≤ n && n ≤ 32) || n == 0x85 || n == 0xa0 || n == 0x1680 ||
    (0x2000 ≤ n && n ≤ 0x200a) || n == 0x2028 || n == 0x2029 || n == 0x202f || n == 0x205f ||
    n == 0x3000

/-- The text without the characters at its two ends that satisfy `p`. -/
def trimWhere (p : Char → Bool) (text : List Char) : List Char :=
  ((text.dropWhile p).reverse.dropWhile p).reverse

/-- The text without the white space at its two ends. -/
def strip (text : List Char) : List Char := trimWhere isSpace text

namespace Numeral

/-- White space that may stand around a number: the blank and the five layout controls. -/
def isPadding (c : Char) : Bool :=
  c == ' ' || (9 ≤ c.toNat && c.toNat ≤ 13)

/-- A character of a number in its plain spelling: digits of other scripts become the usual ones,
white space beyond the usual one becomes a blank, and nothing else beyond the usual is allowed. -/
def plain? (c : Char) : Option Char :=
  if c.toNat < 127 then some c
  else if isSpace c then some ' '
  else (digit? c).map fun d => Char.ofNat ('0'.toNat + d)

/-- The number without the white space around it. -/
def trim (text : List Char) : List Char := trimWhere isPadding text

/-- The value of a digit in a base of at most sixteen. -/
def digitIn? (base : Nat) (c : Char) : Option Nat :=
  let value? :=
    if c.isDigit then some (c.toNat - '0'.toNat)
    else if 'a' ≤ c && c ≤ 'f' then some (c.toNat - 'a'.toNat + 10)
    else if 'A' ≤ c && c ≤ 'F' then some (c.toNat - 'A'.toNat + 10)
    else none
  value?.filter (· < base)

/-- Digits with single underscores between them, after the value `sofar`. -/
def digitsFrom (base : Nat) (sofar : Nat) : List Char → Option Nat
  | [] => some sofar
  | '_' :: c :: rest =>
    match digitIn? base c with
    | some d => digitsFrom base (sofar * base + d) rest
    | none => none
  | c :: rest =>
    match digitIn? base c with
    | some d => digitsFrom base (sofar * base + d) rest
    | none => none

/-- At least one digit, with single underscores between the digits. -/
def digits (base : Nat) : List Char → Option Nat
  | [] => none
  | c :: rest =>
    match digitIn? base c with
    | some d => digitsFrom base d rest
    | none => none

/-- The letters that may announce a base after a zero. -/
def announces (base : Nat) (c : Char) : Bool :=
  (base == 2 && (c == 'b' || c == 'B')) || (base == 8 && (c == 'o' || c == 'O')) ||
    (base == 16 && (c == 'x' || c == 'X'))

/-- A number without a sign; the base may be announced in front of the digits. -/
def magnitude (base : Nat) : List Char → Option Nat
  | '0' :: c :: rest =>
    if announces base c then
      match rest with
      | '_' :: more => digits base more
      | _ => digits base rest
    else digits base ('0' :: c :: rest)
  | text => digits base text

/-- The integer that a text spells in the given base, however many digits it has. -/
def readInt (base : Nat) (text : List Char) : Option Int := do
  match trim (← text.mapM plain?) with
  | '-' :: rest => return -(← magnitude base rest)
  | '+' :: rest => return (← magnitude base rest)
  | rest => return (← magnitude base rest)

/-- The most digits that an integer in base ten may have in a text that is read for a value. -/
def mostDigits : Nat := 4300

/-- Has a text more decimal digits, of whatever script, than an integer may have? -/
def isOverlong (text : List Char) : Bool := mostDigits < text.countP fun c => (digit? c).isSome

/-- The integer that a text spells in base ten, unless it has too many digits. -/
def readDecimal (text : List Char) : Option Int :=
  if isOverlong text then none else readInt 10 text

end Numeral

end ServiceModel.Text
