/-
The values that a document holds at its leaves: nothing, a truth value, an integer, a double
precision number or a text. Values of different kinds are never equal.
-/
import ServiceModel.Json.Basic
import ServiceModel.Double.Shortest

namespace ServiceModel

/-- A value without parts. -/
inductive Primitive where
  | null
  | bool (value : Bool)
  | int (value : Int)
  | double (value : Double)
  | text (value : String)
  deriving DecidableEq, Repr, Inhabited

namespace Primitive

/-- The value as a text. -/
def asText : Primitive → String
  | .null => "None"
  | .bool b => if b then "True" else "False"
  | .int i => toString i
  | .double x => x.text
  | .text s => s

/-- Does the value count as true? Nothing, zero and the empty text do not. -/
def isTruthy : Primitive → Bool
  | .null => false
  | .bool b => b
  | .int i => i != 0
  | .double x => !x.isZero
  | .text s => !s.isEmpty

/-- Same kind and same value; the two zeros among the double precision numbers are one value. -/
def same : Primitive → Primitive → Bool
  | .double x, .double y => x.same y
  | a, b => a == b

/-- Is the value a number? -/
def isNumber : Primitive → Bool
  | .int _ | .double _ => true
  | _ => false

/-- The value as JSON. -/
def toJson : Primitive → Json
  | .null => .null
  | .bool b => .bool b
  | .int i => .int i
  | .double x => .double x
  | .text s => .string s

end Primitive

end ServiceModel
