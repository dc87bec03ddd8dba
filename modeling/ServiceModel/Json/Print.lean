/-
JSON values as text, one member or item to a line, two blanks further in at each level. The text
is of the basic alphabet only: all other characters are written as UTF-16 escapes.
-/
import ServiceModel.Json.Basic
import ServiceModel.Double.Shortest
import ServiceModel.Text.Quoted

namespace ServiceModel.Json

open ServiceModel.Text (hexDigits)

/-- An escape for one UTF-16 unit. -/
def unitEscape (n : Nat) : List Char := '\\' :: 'u' :: hexDigits 4 n

/-- One character inside a string. -/
def escapeChar (c : Char) : List Char :=
  if c = '"' || c = '\\' then ['\\', c]
  else if c = '\n' then ['\\', 'n']
  else if c = '\r' then ['\\', 'r']
  else if c = '\t' then ['\\', 't']
  else if c.toNat = 8 then ['\\', 'b']
  else if c.toNat = 12 then ['\\', 'f']
  else if 32 ≤ c.toNat && c.toNat < 127 then [c]
  else if c.toNat < 0x10000 then unitEscape c.toNat
  else
    let n := c.toNat - 0x10000
    unitEscape (0xd800 + n / 0x400) ++ unitEscape (0xdc00 + n % 0x400)

/-- A string between quotes. -/
def printString (s : String) : String :=
  String.ofList ('"' :: s.toList.flatMap escapeChar ++ ['"'])

/-- A number; the names for infinity and for no number are not JSON but are read by many. -/
def printDouble : Double → String
  | .nan _ => "NaN"
  | .infinite negative => if negative then "-Infinity" else "Infinity"
  | x => x.text

/-- A line break and the blanks of a level. -/
def lineBreak (level : Nat) : String := String.ofList ('\n' :: List.replicate (2 * level) ' ')

mutual

/-- The text of a value that stands at the given level. -/
def printAt (level : Nat) : Json → String
  | .null => "null"
  | .bool b => if b then "true" else "false"
  | .int i => toString i
  | .double x => printDouble x
  | .string s => printString s
  | .array [] => "[]"
  | .array (item :: rest) =>
    "[" ++ lineBreak (level + 1) ++ printAt (level + 1) item ++ printItems (level + 1) rest ++
      lineBreak level ++ "]"
  | .object [] => "\x7b\x7d"
  | .object ((name, value) :: rest) =>
    "\x7b" ++ lineBreak (level + 1) ++ printString name ++ ": " ++ printAt (level + 1) value ++
      printMembers (level + 1) rest ++ lineBreak level ++ "\x7d"

def printItems (level : Nat) : List Json → String
  | [] => ""
  | item :: rest => "," ++ lineBreak level ++ printAt level item ++ printItems level rest

def printMembers (level : Nat) : List (String × Json) → String
  | [] => ""
  | (name, value) :: rest =>
    "," ++ lineBreak level ++ printString name ++ ": " ++ printAt level value ++
      printMembers level rest

end

/-- The text of a value. -/
def print (json : Json) : String := printAt 0 json

end ServiceModel.Json
