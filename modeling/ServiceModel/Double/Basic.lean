/-
Double precision numbers as exact data: a sign, a mantissa and a power of two. An exact quotient
is rounded to the nearest such number, a tie to the even mantissa; sums and products are the
rounded exact ones.
-/
namespace ServiceModel

/-- A double precision number. A finite one is `±mantissa · 2^exponent`, with a mantissa below
`2^53` that is at least `2^52` unless the exponent is the least one, `-1074`. The ways to be no
number are told apart by a mark. -/
inductive Double where
  | finite (negative : Bool) (mantissa : Nat) (exponent : Int)
  | infinite (negative : Bool)
  | nan (mark : Nat)
  deriving DecidableEq, Repr, Inhabited

namespace Double

/-- A power of two with an exponent that is not negative. -/
def two (exponent : Int) : Nat := Nat.pow 2 exponent.toNat

/-- A power of ten with an exponent that is not negative. -/
def ten (exponent : Int) : Nat := Nat.pow 10 exponent.toNat

/-- The least mantissa of a number that does not have the least exponent: `2^52`. -/
def leastMantissa : Nat := 0x10000000000000

/-- The zero of a sign. -/
def zero (negative : Bool) : Double := .finite negative 0 (-1074)

/-- The quotient rounded to the nearest integer, a tie to the even one. -/
def roundDiv (num den : Nat) : Nat :=
  let q := num / den
  let r := num % den
  if 2 * r < den then q
  else if den < 2 * r then q + 1
  else if q % 2 = 0 then q else q + 1

/-- `num / (den · 2^e)` as a quotient of integers. -/
def scale (num den : Nat) (e : Int) : Nat × Nat :=
  if 0 ≤ e then (num, den * two e) else (num * two (-e), den)

/-- The power of two at or below a positive quotient. -/
def binade (num den : Nat) : Int :=
  let guess : Int := (Nat.log2 num : Int) - Nat.log2 den
  let (n, d) := scale num den guess
  if d ≤ n then guess else guess - 1

/-- The number with the given mantissa of at most `2^53` and exponent; too large ones are
infinite. -/
def ofMantissa (negative : Bool) (mantissa : Nat) (exponent : Int) : Double :=
  let (m, e) :=
    if mantissa = 2 * leastMantissa then (leastMantissa, exponent + 1) else (mantissa, exponent)
  if 971 < e then .infinite negative else .finite negative m e

/-- The number nearest to `±num/den`, for a positive `den`. -/
def ofRatio (negative : Bool) (num den : Nat) : Double :=
  if num = 0 then zero negative
  else
    let exponent := max (binade num den - 52) (-1074)
    let (n, d) := scale num den exponent
    ofMantissa negative (roundDiv n d) exponent

/-- The number nearest to `±mantissa · 2^exponent`. -/
def ofScaled (negative : Bool) (mantissa : Nat) (exponent : Int) : Double :=
  if 0 ≤ exponent then ofRatio negative (mantissa * two exponent) 1
  else ofRatio negative mantissa (two (-exponent))

/-- The number nearest to `±digits · 10^exponent`. Exponents far outside the range are decided
by the count of digits alone. -/
def ofDecimal (negative : Bool) (digits : Nat) (exponent : Int) : Double :=
  if digits = 0 then zero negative
  else
    let place : Int := (Nat.toDigits 10 digits).length + exponent
    if 400 < place then .infinite negative
    else if place < -400 then zero negative
    else if 0 ≤ exponent then ofRatio negative (digits * ten exponent) 1
    else ofRatio negative digits (ten (-exponent))

/-- The number nearest to a natural number, unless that is too large for any. -/
def ofNat? (n : Nat) : Option Double :=
  match ofRatio false n 1 with
  | .infinite _ => none
  | x => some x

/-- What is no number gets a mark. -/
def withMark (mark : Nat) : Double → Double
  | .nan _ => .nan mark
  | x => x

/-- The number of the other sign. -/
def neg : Double → Double
  | .finite negative m e => .finite (!negative) m e
  | .infinite negative => .infinite (!negative)
  | .nan mark => .nan mark

/-- Zero of either sign. -/
def isZero : Double → Bool
  | .finite _ m _ => m == 0
  | _ => false

/-- The rounded product. -/
def mul : Double → Double → Double
  | .nan mark, _ => .nan mark
  | _, .nan mark => .nan mark
  | .finite s m e, .finite t n f => ofScaled (s != t) (m * n) (e + f)
  | .infinite s, .finite t n _ => if n = 0 then .nan 0 else .infinite (s != t)
  | .finite s m _, .infinite t => if m = 0 then .nan 0 else .infinite (s != t)
  | .infinite s, .infinite t => .infinite (s != t)

/-- The rounded sum; an exact zero is positive unless both parts are negative. -/
def add : Double → Double → Double
  | .nan mark, _ => .nan mark
  | _, .nan mark => .nan mark
  | .finite s m e, .finite t n f =>
    let low := min e f
    let signed (negative : Bool) (m : Nat) (e : Int) : Int :=
      let size : Int := (m * two (e - low) : Nat)
      if negative then -size else size
    let sum := signed s m e + signed t n f
    if sum = 0 then zero (s && t) else ofScaled (sum < 0) sum.natAbs low
  | .infinite s, .infinite t => if s = t then .infinite s else .nan 0
  | .infinite s, .finite .. => .infinite s
  | .finite .., .infinite t => .infinite t

/-- Equality of numbers: the two zeros are equal, and what is no number equals itself alone. -/
def same (x y : Double) : Bool := (x.isZero && y.isZero) || x == y

/-- A number that is neither infinite nor without value. -/
def isFinite : Double → Bool
  | .finite .. => true
  | _ => false

/-- The integer that a number is. -/
def toInt? : Double → Option Int
  | .finite negative m e =>
    let signed (n : Nat) : Int := if negative then -n else n
    if 0 ≤ e then some (signed (m * two e))
    else if m % two (-e) = 0 then some (signed (m / two (-e)))
    else none
  | _ => none

end Double

end ServiceModel
