/-
Reading bytes as UTF-8. A sequence is refused at the first byte that cannot continue it, and the
fault names the bytes up to there.
-/
namespace ServiceModel.Text.Utf8

/-- What is wrong with a sequence of bytes. -/
inductive Reason where
  | start
  | continuation
  | truncated
  deriving DecidableEq, Repr

/-- Bytes that are no character: where they start, how many there are and what the first is. -/
structure Fault where
  reason : Reason
  position : Nat
  count : Nat
  byte : Nat
  deriving DecidableEq, Repr

namespace Fault

/-- The kind of fault in words. -/
def reasonText : Reason → String
  | .start => "invalid start byte"
  | .continuation => "invalid continuation byte"
  | .truncated => "unexpected end of data"

/-- A hexadecimal digit. -/
def hexDigit (n : Nat) : Char := "0123456789abcdef".toList.getD n '0'

/-- A byte as two hexadecimal digits. -/
def hexByte (n : Nat) : String := String.ofList [hexDigit (n / 16), hexDigit (n % 16)]

/-- The fault in words. -/
def message (f : Fault) : String :=
  let named :=
    if f.count = 1 then "byte 0x" ++ hexByte f.byte ++ " in position " ++ toString f.position
    else "bytes in position " ++ toString f.position ++ "-" ++ toString (f.position + f.count - 1)
  "'utf-8' codec can't decode " ++ named ++ ": " ++ reasonText f.reason

end Fault

/-- Bytes that continue a character. -/
def isContinuation (b : Nat) : Bool := 0x80 ≤ b && b < 0xc0

/-- How many bytes continue a character that starts with a byte, if one can start with it. -/
def continuationCount? (lead : Nat) : Option Nat :=
  if lead < 0x80 then some 0
  else if lead < 0xc2 then none
  else if lead < 0xe0 then some 1
  else if lead < 0xf0 then some 2
  else if lead < 0xf5 then some 3
  else none

/-- May a byte follow the first one? Some second bytes would spell a character in more bytes than
it needs, half of a pair, or no character at all. -/
def maySecond (lead second : Nat) : Bool :=
  isContinuation second &&
    if lead = 0xe0 then 0xa0 ≤ second
    else if lead = 0xed then second < 0xa0
    else if lead = 0xf0 then 0x90 ≤ second
    else if lead = 0xf4 then second < 0x90
    else true

/-- How many of the expected bytes after the first one are as they should be. -/
def goodCount (lead expected : Nat) (rest : List Nat) : Nat :=
  match rest with
  | [] => 0
  | second :: others =>
    if maySecond lead second then 1 + ((others.take (expected - 1)).takeWhile isContinuation).length
    else 0

/-- The value of the bits that bytes carry after those of the first one. -/
def codePoint (lead : Nat) (rest : List Nat) : Nat :=
  let head :=
    match rest.length with
    | 0 => lead
    | 1 => lead % 32
    | 2 => lead % 16
    | _ => lead % 8
  rest.foldl (fun value b => value * 64 + b % 64) head

/-- The characters that bytes spell, the first of them standing at a position. -/
def decodeFrom (position : Nat) : List Nat → Except Fault (List Char)
  | [] => .ok []
  | lead :: rest =>
    match continuationCount? lead with
    | none => .error ⟨.start, position, 1, lead⟩
    | some expected =>
      let good := if expected = 0 then 0 else goodCount lead expected rest
      if good = expected then
        match decodeFrom (position + 1 + expected) (rest.drop expected) with
        | .error e => .error e
        | .ok chars => .ok (Char.ofNat (codePoint lead (rest.take expected)) :: chars)
      else if good = rest.length then .error ⟨.truncated, position, 1 + good, lead⟩
      else .error ⟨.continuation, position, 1 + good, lead⟩
termination_by bytes => bytes.length
decreasing_by
  simp only [List.length_drop, List.length_cons]
  omega

/-- The text that bytes spell. -/
def decode (bytes : List UInt8) : Except Fault String :=
  (decodeFrom 0 (bytes.map UInt8.toNat)).map String.ofList

end ServiceModel.Text.Utf8
