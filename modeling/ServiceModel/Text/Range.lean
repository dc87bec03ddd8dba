/-
Places in a text and the spans between them. A span has one written form, six integers between
semicolons; writing and then reading gives the span back, and reading is lenient about how each
integer is spelled.
-/
import ServiceModel.Text.Split
import ServiceModel.Text.Numeral
import ServiceModel.Text.Quoted

namespace ServiceModel.Text

/-- A point of a text: line and column count from one, the offset counts characters from zero. -/
structure Position where
  line : Int
  column : Int
  offset : Int
  deriving DecidableEq, Repr, Inhabited

/-- The text between two points. -/
structure Range where
  start : Position
  stop : Position
  deriving DecidableEq, Repr, Inhabited

/-- Why a text is no written span. -/
inductive RangeError where
  /-- The text has not six parts. -/
  | parts (text : String)
  /-- One of the parts is no integer. -/
  | integer
  deriving DecidableEq, Repr

/-- The message that says so; what is wrong with an integer is said in the reader's own words. -/
def RangeError.message? : RangeError → Option String
  | .parts text => some ("Malformed encoded range: " ++ quoted text)
  | .integer => none

namespace Range

/-- The six numbers of a span in the order in which they are written. -/
def numbers (range : Range) : List Int :=
  [range.start.line, range.start.column, range.start.offset,
    range.stop.line, range.stop.column, range.stop.offset]

/-- The span as `line;column;offset;line;column;offset`. -/
def encode (range : Range) : String :=
  String.intercalate ";" (range.numbers.map toString)

/-- The span that a text stands for; the empty text stands for none. -/
def decode (text : String) : Except RangeError (Option Range) :=
  if text.isEmpty then .ok none
  else match cut ';' text.toList with
    | [a, b, c, d, e, f] =>
      match [a, b, c, d, e, f].mapM (Numeral.readInt 10) with
      | some [a, b, c, d, e, f] => .ok (some ⟨⟨a, b, c⟩, ⟨d, e, f⟩⟩)
      | _ => .error .integer
    | _ => .error (.parts text)

end Range

end ServiceModel.Text
