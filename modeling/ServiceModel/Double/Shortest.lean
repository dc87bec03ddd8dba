/-
The shortest decimal of a double precision number: the fewest digits that round back to it, and
the nearest such decimal. The text is positional from `10^-4` up to below `10^16`, and otherwise
has a decimal exponent of at least two digits.
-/
import ServiceModel.Double.Basic

namespace ServiceModel.Double

/-- The decimals that round to a positive number: the number and the ends of the interval as
multiples of `1 / den`, the ends being part of it when `closed`. -/
structure Interval where
  low : Nat
  value : Nat
  high : Nat
  den : Nat
  closed : Bool
  deriving Repr

/-- The interval of `mantissa · 2^exponent`. Below a power of two the neighbour is half as far. -/
def interval (mantissa : Nat) (exponent : Int) : Interval :=
  let below := if mantissa = leastMantissa && -1074 < exponent then 1 else 2
  let unit := two (exponent - 2)
  let den := two (2 - exponent)
  ⟨(4 * mantissa - below) * unit, 4 * mantissa * unit, (4 * mantissa + 2) * unit, den,
    mantissa % 2 = 0⟩

namespace Interval

/-- Does `digits · 10^power` round to the number? -/
def holds (i : Interval) (digits : Nat) (power : Int) : Bool :=
  let point := digits * ten power * i.den
  let low := i.low * ten (-power)
  let high := i.high * ten (-power)
  if i.closed then low ≤ point && point ≤ high else low < point && point < high

/-- The place of the leading decimal digit: the number is at least `10` to it. -/
def leadingPlace (i : Interval) : Int :=
  (Nat.toDigits 10 (i.value * ten 400 / i.den)).length - 401

/-- On the grid of multiples of `10^power`, the nearer of the number's two neighbours that rounds
to it, the even one on a tie. -/
def nearest? (i : Interval) (power : Int) : Option Nat :=
  let num := i.value * ten (-power)
  let den := i.den * ten power
  let lower := num / den
  match i.holds lower power, i.holds (lower + 1) power with
  | true, true => some (roundDiv num den)
  | true, false => some lower
  | false, true => some (lower + 1)
  | false, false => none

/-- The decimal with the fewest digits, of at most `count + tried` of them, `tried` having
failed. -/
def shortestFrom (i : Interval) (place : Int) (tried : Nat) : Nat → Nat × Int
  | 0 => (i.value / i.den, 0)
  | count + 1 =>
    let power := place - tried
    match i.nearest? power with
    | some digits => (digits, power)
    | none => i.shortestFrom place (tried + 1) count

/-- The shortest decimal `digits · 10^power`; seventeen digits are always enough. -/
def shortest (i : Interval) : Nat × Int := i.shortestFrom i.leadingPlace 0 17

end Interval

/-- The digits without the zeros at the end, and how many those were. -/
def dropZeros (digits : List Char) : List Char × Nat :=
  let kept := (digits.reverse.dropWhile (· == '0')).reverse
  (kept, digits.length - kept.length)

/-- The text of `0.digits · 10^point`. -/
def place (digits : List Char) (point : Int) : List Char :=
  if -4 < point && point ≤ 16 then
    if point ≤ 0 then
      ['0', '.'] ++ List.replicate (-point).toNat '0' ++ digits
    else
      let whole := digits.take point.toNat
      let fraction := digits.drop point.toNat
      whole ++ List.replicate (point.toNat - whole.length) '0' ++ '.' ::
        (if fraction.isEmpty then ['0'] else fraction)
  else
    let exponent := point - 1
    let size := Nat.toDigits 10 exponent.natAbs
    let mantissa := match digits with
      | [] => []
      | [d] => [d]
      | d :: rest => d :: '.' :: rest
    mantissa ++ 'e' :: (if exponent < 0 then '-' else '+') ::
      (if size.length < 2 then '0' :: size else size)

/-- The shortest text that reads back as the number. -/
def text : Double → String
  | .nan _ => "nan"
  | .infinite negative => if negative then "-inf" else "inf"
  | .finite negative m e =>
    let body :=
      if m = 0 then "0.0".toList
      else
        let (n, power) := (interval m e).shortest
        let (digits, dropped) := dropZeros (Nat.toDigits 10 n)
        place digits (power + dropped + digits.length)
    String.ofList (if negative then '-' :: body else body)

end ServiceModel.Double
