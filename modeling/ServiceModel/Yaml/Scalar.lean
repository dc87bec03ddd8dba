/-
The value of a scalar. A plain one is typed by its text: the first kind that fits among truth
values, double precision numbers, integers, nothing, and numbers in the notation of JSON; all
other texts stand for themselves. An explicit tag decides instead of the text.
-/
import ServiceModel.Yaml.Node
import ServiceModel.Double.Read
import ServiceModel.Primitive

namespace ServiceModel.Yaml.Scalar

open ServiceModel.Text

/-! ## The forms of plain scalars -/

/-- The spellings of truth values. -/
def boolWords : List String :=
  ["yes", "Yes", "YES", "no", "No", "NO", "true", "True", "TRUE", "false", "False", "FALSE",
    "on", "On", "ON", "off", "Off", "OFF"]

/-- The spellings of nothing. -/
def nullWords : List String := ["~", "null", "Null", "NULL", ""]

/-- The text after an optional sign. -/
def unsigned (text : List Char) : List Char :=
  match text with
  | '-' :: rest => rest
  | '+' :: rest => rest
  | _ => text

/-- A digit or an underscore. -/
def isDigitOrLow (c : Char) : Bool := c.isDigit || c == '_'

/-- At least one character, all of which satisfy `p`. -/
def someAll (p : Char → Bool) (text : List Char) : Bool := !text.isEmpty && text.all p

/-- Nothing, or an exponent with a sign. -/
def isSignedExponent : List Char → Bool
  | [] => true
  | e :: sign :: digits =>
    (e == 'e' || e == 'E') && (sign == '-' || sign == '+') && someAll Char.isDigit digits
  | _ => false

/-- Places in base sixty behind colons, at least `least` of them, and then what `after` accepts. -/
def isSexagesimal (after : List Char → Bool) (least : Nat) : List Char → Bool
  | ':' :: a :: b :: rest =>
    if b.isDigit then '0' ≤ a && a ≤ '5' && isSexagesimal after (least - 1) rest
    else a.isDigit && isSexagesimal after (least - 1) (b :: rest)
  | [':', a] => a.isDigit && least ≤ 1 && after []
  | rest => least == 0 && after rest

/-- A number with a point, or one that is infinite or no number. -/
def isDouble (text : List Char) : Bool :=
  let body := unsigned text
  let tail := body.dropWhile isDigitOrLow
  let pointed := match tail with
    | '.' :: rest => isSignedExponent (rest.dropWhile isDigitOrLow)
    | _ => false
  let sexagesimal :=
    isSexagesimal (fun rest => match rest with
      | '.' :: fraction => fraction.all isDigitOrLow
      | _ => false) 1 tail
  let leading := match text with
    | '.' :: d :: rest => d.isDigit && isSignedExponent (rest.dropWhile isDigitOrLow)
    | _ => false
  (body.head?.any Char.isDigit && (pointed || sexagesimal)) || leading ||
    [".inf", ".Inf", ".INF"].contains (String.ofList body) ||
    [".nan", ".NaN", ".NAN"].contains (String.ofList text)

/-- An integer in base two, eight, ten, sixteen or sixty. -/
def isInteger (text : List Char) : Bool :=
  match unsigned text with
  | ['0'] => true
  | '0' :: 'b' :: digits => someAll (fun c => c == '0' || c == '1' || c == '_') digits
  | '0' :: 'x' :: digits =>
    someAll (fun c => (Numeral.digitIn? 16 c).isSome || c == '_') digits
  | '0' :: digits => someAll (fun c => ('0' ≤ c && c ≤ '7') || c == '_') digits
  | c :: rest =>
    c.isDigit &&
      (let tail := rest.dropWhile isDigitOrLow
       tail.isEmpty || isSexagesimal List.isEmpty 1 tail)
  | [] => false

/-- A number in the notation of JSON. -/
def isJsonNumber (text : List Char) : Bool :=
  let body := match text with
    | '-' :: rest => rest
    | _ => text
  let whole := body.takeWhile Char.isDigit
  let rest := body.drop whole.length
  let (fraction?, rest) := match rest with
    | '.' :: more => (some (more.takeWhile Char.isDigit), more.dropWhile Char.isDigit)
    | _ => (none, rest)
  let exponent := match rest with
    | [] => true
    | e :: more => (e == 'e' || e == 'E') && someAll Char.isDigit (unsigned more)
  !whole.isEmpty && (whole.head? != some '0' || whole.length == 1) && fraction? != some [] &&
    exponent

/-- Does a form fit a text or the text without a line feed at its end? -/
def fits (form : List Char → Bool) (text : List Char) : Bool :=
  form text || (text.getLast? == some '\n' && form text.dropLast)

/-- The forms that a plain scalar can have. -/
inductive Kind where
  | bool
  | double
  | int
  /-- A mark that asks for a construct of its own and has no value. -/
  | reserved
  | null
  | text
  deriving DecidableEq, Repr

/-- The first form that fits a text. -/
def kindOf (text : List Char) : Kind :=
  let word (words : List String) (t : List Char) : Bool := words.contains (String.ofList t)
  if fits (word boolWords) text then .bool
  else if fits isDouble text then .double
  else if fits isInteger text then .int
  else if fits (word ["<<", "="]) text then .reserved
  else if text.isEmpty || (text.head? != some '\n' && fits (word nullWords) text) then .null
  else if fits isJsonNumber text then .double
  else .text

/-! ## Values -/

/-- The truth value that a word stands for, in any case. -/
def readBool (text : List Char) : Except Fault Primitive :=
  let word := String.ofList (text.map Char.toLower)
  if ["yes", "true", "on"].contains word then .ok (.bool true)
  else if ["no", "false", "off"].contains word then .ok (.bool false)
  else .error .boolean

/-- A number in base sixty, the last place first. -/
def sexagesimal (places : List Int) : Int :=
  places.foldr (fun place value => place + 60 * value) 0

/-- The integer that was read; a text that spells none is at fault. -/
def expected : Option Int → Except Fault Int
  | some i => .ok i
  | none => .error .number

/-- One place of an integer, in decimal digits. -/
def place (text : List Char) : Except Fault Int := expected (Numeral.readDecimal text)

/-- An integer without sign and underscores. A base that is a power of two has no limit on its
digits. -/
def readMagnitude (text : List Char) : Except Fault Int :=
  match text with
  | [] => .error .emptyNumber
  | ['0'] => .ok 0
  | '0' :: 'b' :: digits => expected (Numeral.readInt 2 digits)
  | '0' :: 'x' :: digits => expected (Numeral.readInt 16 digits)
  | '0' :: _ => expected (Numeral.readInt 8 text)
  | _ =>
    if text.contains ':' then do
      let places ← (cut ':' text).mapM place
      return sexagesimal places.reverse
    else place text

/-- The integer that a text spells. -/
def readInteger (text : List Char) : Except Fault Primitive := do
  match text.filter (· ≠ '_') with
  | [] => .error .emptyNumber
  | '-' :: rest => return .int (-(← readMagnitude rest))
  | '+' :: rest => return .int (← readMagnitude rest)
  | rest => return .int (← readMagnitude rest)

/-- The sum of the places of a number in base sixty, the last place first and each of them
counting `unit` times its value. -/
def sumPlaces (sum : Double) (unit : Nat) : List Double → Except Fault Double
  | [] => .ok sum
  | place :: rest =>
    match Double.ofNat? unit with
    | some u => sumPlaces (sum.add (place.mul u)) (unit * 60) rest
    | none => .error .tooManyPlaces

/-- The double precision number that a text spells. What is no number, but is not spelled by the
usual word for that, has the given mark. -/
def readDouble (mark : Nat) (text : List Char) : Except Fault Primitive := do
  let lowered := (text.filter (· ≠ '_')).map Char.toLower
  let (negative, body) ← match lowered with
    | [] => .error .emptyNumber
    | '-' :: rest => .ok (true, rest)
    | '+' :: rest => .ok (false, rest)
    | rest => .ok (false, rest)
  let read (digits : List Char) : Except Fault Double :=
    match Double.read? digits with
    | some x => .ok x
    | none => .error .number
  if body = ".nan".toList then return .double (.nan 0)
  else
    let size ←
      if body = ".inf".toList then .ok (.infinite false)
      else if body.contains ':' then do
        let places ← (cut ':' body).mapM read
        sumPlaces (Double.zero false) 1 places.reverse
      else read body
    return .double ((if negative then size.neg else size).withMark mark)

/-- The value of a character of data in base sixty-four. -/
def isBase64 (c : Char) : Bool := c.isAlphanum || c == '+' || c == '/'

/-- Does the data end at the end of a group of four? Characters outside the alphabet are passed
over; padding that completes a group ends the data. -/
def isCompleteBase64 (place pads : Nat) : List Char → Bool
  | [] => place == 0
  | c :: rest =>
    if c = '=' then
      if 2 ≤ place then
        if 4 ≤ place + (pads + 1) then true else isCompleteBase64 place (pads + 1) rest
      else isCompleteBase64 place pads rest
    else if isBase64 c then isCompleteBase64 ((place + 1) % 4) 0 rest
    else isCompleteBase64 place pads rest

/-- The tags whose scalars keep their text. -/
def textTags : List String :=
  ["str", "timestamp", "set", "map", "seq", "omap", "pairs"]

/-- The value of a scalar with an explicit tag. -/
def ofTag (mark : Nat) (tag : String) (text : List Char) : Except Fault Primitive :=
  match after? "tag:yaml.org,2002:".toList tag.toList with
  | none => .error .malformed
  | some name =>
    let name := String.ofList name
    if textTags.contains name then .ok (.text (String.ofList text))
    else if name = "null" then .ok .null
    else if name = "bool" then readBool text
    else if name = "int" then readInteger text
    else if name = "float" then readDouble mark text
    else if name = "binary" then
      if text.all (·.toNat < 128) && isCompleteBase64 0 0 text then
        .ok (.text (String.ofList text))
      else .error .malformed
    else .error .malformed

/-- The value that a text stands for by its form. -/
def ofText (mark : Nat) (text : List Char) : Except Fault Primitive :=
  match kindOf text with
  | .bool => readBool text
  | .double => readDouble mark text
  | .int => readInteger text
  | .reserved => .error .malformed
  | .null => .ok .null
  | .text => .ok (.text (String.ofList text))

/-- The tags of numbers. -/
def numberTags : List String := ["tag:yaml.org,2002:int", "tag:yaml.org,2002:float"]

/-- The value of a scalar. Halves of characters are no digits, not even two that make one. -/
def value (mark : Nat) (tag : ScalarTag) (text : String) : Except Fault Primitive :=
  match tag with
  | .byText => ofText mark text.toList
  | .text => .ok (.text text)
  | .named tag => ofTag mark tag text.toList
  | .halved tag =>
    if numberTags.contains tag then .error .number else ofTag mark tag text.toList

end ServiceModel.Yaml.Scalar
