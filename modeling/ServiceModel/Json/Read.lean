/-
Reading JSON text as RFC 8259 has it: white space around the tokens, numbers without fraction and
exponent as integers and all others as double precision numbers, strings with their escapes
resolved.
-/
import ServiceModel.Json.Basic
import ServiceModel.Double.Read

namespace ServiceModel.Json

/-- White space between tokens. -/
def isWhite (c : Char) : Bool := c == ' ' || c == '\t' || c == '\n' || c == '\r'

/-- The text without the white space at its head. -/
def skipWhite (text : List Char) : List Char := text.dropWhile isWhite

/-- The UTF-16 unit that four digits in base sixteen spell. -/
def unit? (a b c d : Char) : Option Nat := do
  let digit := Text.Numeral.digitIn? 16
  return (((← digit a) * 16 + (← digit b)) * 16 + (← digit c)) * 16 + (← digit d)

/-- The character of a unit that stands alone; half of a pair without its other half is the
replacement character. -/
def charOfUnit (n : Nat) : Char :=
  if 0xd800 ≤ n && n < 0xe000 then Char.ofNat 0xfffd else Char.ofNat n

/-- The character of two units that form a pair. -/
def charOfPair (high low : Nat) : Char :=
  Char.ofNat (0x10000 + (high - 0xd800) * 0x400 + (low - 0xdc00))

/-- The character that a letter after a backslash stands for. -/
def escaped? (c : Char) : Option Char :=
  match c with
  | '"' => some '"'
  | '\\' => some '\\'
  | '/' => some '/'
  | 'b' => some (Char.ofNat 8)
  | 'f' => some (Char.ofNat 12)
  | 'n' => some '\n'
  | 'r' => some '\r'
  | 't' => some '\t'
  | _ => none

/-- The rest of a string after its opening quote; `done` holds its characters so far in reverse,
`high` the first half of a pair whose second half may follow. -/
def readString (done : List Char) (high : Option Nat) :
    List Char → Option (String × List Char)
  | [] => none
  | '\\' :: 'u' :: a :: b :: c :: d :: rest =>
    match unit? a b c d with
    | none => none
    | some n =>
      match high with
      | some h =>
        if 0xdc00 ≤ n && n < 0xe000 then readString (charOfPair h n :: done) none rest
        else if 0xd800 ≤ n && n < 0xdc00 then readString (charOfUnit h :: done) (some n) rest
        else readString (charOfUnit n :: charOfUnit h :: done) none rest
      | none =>
        if 0xd800 ≤ n && n < 0xdc00 then readString done (some n) rest
        else readString (charOfUnit n :: done) none rest
  | c :: rest =>
    let done := match high with
      | some h => charOfUnit h :: done
      | none => done
    if c = '"' then some (String.ofList done.reverse, rest)
    else if c = '\\' then
      match rest with
      | e :: more =>
        match escaped? e with
        | some x => readString (x :: done) none more
        | none => none
      | [] => none
    else if c.toNat < 32 then none
    else readString (c :: done) none rest

/-- A number at the head of a text. -/
def readNumber (text : List Char) : Option (Json × List Char) :=
  let (negative, rest) := match text with
    | '-' :: rest => (true, rest)
    | _ => (false, text)
  let whole := rest.takeWhile Char.isDigit
  let rest := rest.dropWhile Char.isDigit
  let (fraction, rest) := match rest with
    | '.' :: more => (some (more.takeWhile Char.isDigit), more.dropWhile Char.isDigit)
    | _ => (none, rest)
  let (exponent, rest) := match rest with
    | c :: more =>
      if c = 'e' || c = 'E' then
        let sign := more.takeWhile fun d => d == '+' || d == '-'
        let digits := (more.drop sign.length).takeWhile Char.isDigit
        (some (c :: sign ++ digits), more.drop (sign.length + digits.length))
      else (none, rest)
    | [] => (none, rest)
  if whole.isEmpty || (whole.head? = some '0' && 1 < whole.length) || fraction = some [] then none
  else match fraction, exponent with
    | none, none =>
      let n : Int := Double.digitsValue whole
      some (.int (if negative then -n else n), rest)
    | _, _ =>
      (Double.readDecimal? negative
        (whole ++ (fraction.elim [] ('.' :: ·)) ++ exponent.getD [])).map fun x => (.double x, rest)

mutual

/-- A value at the head of a text; no step goes on beyond `fuel` tokens. -/
def readValue (fuel : Nat) (text : List Char) : Option (Json × List Char) :=
  match fuel with
  | 0 => none
  | fuel + 1 =>
    match skipWhite text with
    | 'n' :: 'u' :: 'l' :: 'l' :: rest => some (.null, rest)
    | 't' :: 'r' :: 'u' :: 'e' :: rest => some (.bool true, rest)
    | 'f' :: 'a' :: 'l' :: 's' :: 'e' :: rest => some (.bool false, rest)
    | '"' :: rest => (readString [] none rest).map fun (s, rest) => (.string s, rest)
    | '[' :: rest =>
      match skipWhite rest with
      | ']' :: rest => some (.array [], rest)
      | _ => readItems fuel [] rest
    | '{' :: rest =>
      match skipWhite rest with
      | '}' :: rest => some (.object [], rest)
      | _ => readMembers fuel [] rest
    | rest => readNumber rest

/-- The items of an array from the next one on; `done` holds the earlier ones in reverse. -/
def readItems (fuel : Nat) (done : List Json) (text : List Char) : Option (Json × List Char) :=
  match fuel with
  | 0 => none
  | fuel + 1 =>
    match readValue fuel text with
    | none => none
    | some (item, rest) =>
      match skipWhite rest with
      | ',' :: rest => readItems fuel (item :: done) rest
      | ']' :: rest => some (.array (item :: done).reverse, rest)
      | _ => none

/-- The members of an object from the next one on. -/
def readMembers (fuel : Nat) (done : List (String × Json)) (text : List Char) :
    Option (Json × List Char) :=
  match fuel with
  | 0 => none
  | fuel + 1 =>
    match skipWhite text with
    | '"' :: rest =>
      match readString [] none rest with
      | none => none
      | some (name, rest) =>
        match skipWhite rest with
        | ':' :: rest =>
          match readValue fuel rest with
          | none => none
          | some (value, rest) =>
            match skipWhite rest with
            | ',' :: rest => readMembers fuel ((name, value) :: done) rest
            | '}' :: rest => some (.object ((name, value) :: done).reverse, rest)
            | _ => none
        | _ => none
    | _ => none

end

/-- The value that a JSON text denotes. -/
def read? (text : String) : Option Json :=
  match readValue (text.length + 1) text.toList with
  | some (json, rest) => if (skipWhite rest).isEmpty then some json else none
  | none => none

end ServiceModel.Json
