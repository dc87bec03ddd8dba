/-
Schemas, sorted by what their `type` says: texts, numbers, truth values, arrays, and objects, which
are also what has no type. A schema is a view of an object node; nothing below it is read before
it is asked for.
-/
import ServiceModel.Document.Reference

namespace ServiceModel

/-- A schema of type `string`. -/
structure StringSchema where
  object : Object
  deriving Repr

/-- A schema of type `integer` or `number`. -/
structure NumberSchema where
  object : Object
  deriving Repr

/-- A schema of type `boolean`. -/
structure BooleanSchema where
  object : Object
  deriving Repr

/-- A schema of type `array`. -/
structure ArraySchema where
  object : Object
  deriving Repr

/-- A schema of type `object` or without type: an object or a composition. -/
structure ObjectSchema where
  object : Object
  deriving Repr

/-- A schema. -/
inductive Schema where
  | string (schema : StringSchema)
  | number (schema : NumberSchema)
  | boolean (schema : BooleanSchema)
  | array (schema : ArraySchema)
  | object (schema : ObjectSchema)
  deriving Repr

/-- A schema in place or a reference to one. -/
abbrev SchemaOrReference := OrReference Schema

namespace Schema

/-- The node of a schema. -/
def node : Schema → Object
  | .string s => s.object
  | .number s => s.object
  | .boolean s => s.object
  | .array s => s.object
  | .object s => s.object

/-- The kind of schema that a type stands for. -/
def ofType? (o : Object) (type : String) : Option Schema :=
  match type with
  | "string" => some (.string ⟨o⟩)
  | "integer" => some (.number ⟨o⟩)
  | "number" => some (.number ⟨o⟩)
  | "boolean" => some (.boolean ⟨o⟩)
  | "array" => some (.array ⟨o⟩)
  | "object" => some (.object ⟨o⟩)
  | _ => none

/-- The schema that a node is, if it has a recognized shape. -/
def classify (node : Node) : Option Schema :=
  match node.object? with
  | none => none
  | some o =>
    match o.value? "type" with
    | none => some (.object ⟨o⟩)
    | some (.literal ⟨.text type, _⟩) => ofType? o type
    | some _ => none

/-- The schema that a node has to be. -/
def ofNode (node : Node) : Except Failure Schema :=
  match classify node with
  | some schema => .ok schema
  | none => .error (.shape (.unknownSchema node.start))

end Schema

namespace SchemaOrReference

/-- The schema, or the reference to one, that a node has to be. -/
def ofNode (node : Node) : Except Failure SchemaOrReference := OrReference.ofNode Schema.ofNode node

/-- The schema that is written in place or referred to. -/
def resolve (root : Node) : SchemaOrReference → Except Failure Schema
  | .inline schema => .ok schema
  | .reference r => do
    let node ← r.target root
    match Schema.classify node with
    | some schema => return schema
    | none => .error (.shape (.targetNotSchema (← r.pointer) node.start))

end SchemaOrReference

namespace StringSchema

def type (s : StringSchema) : Except Failure Literal := s.object.requireText "type" "string schema"
def description? (s : StringSchema) : Option Literal := s.object.text? "description"
def default? (s : StringSchema) : Option Literal := s.object.literal? "default"
def const? (s : StringSchema) : Option Literal := s.object.literal? "const"
def minLength? (s : StringSchema) : Option Literal := s.object.number? "minLength"
def maxLength? (s : StringSchema) : Option Literal := s.object.number? "maxLength"
def pattern? (s : StringSchema) : Option Literal := s.object.text? "pattern"
def format? (s : StringSchema) : Option Literal := s.object.text? "format"
def enum (s : StringSchema) : Except Failure (Option (List Literal)) := s.object.literals "enum"

end StringSchema

namespace NumberSchema

def type (s : NumberSchema) : Except Failure Literal := s.object.requireText "type" "number schema"
def description? (s : NumberSchema) : Option Literal := s.object.text? "description"
def default? (s : NumberSchema) : Option Literal := s.object.literal? "default"
def const? (s : NumberSchema) : Option Literal := s.object.literal? "const"
def format? (s : NumberSchema) : Option Literal := s.object.text? "format"
def multipleOf? (s : NumberSchema) : Option Literal := s.object.number? "multipleOf"
def minimum? (s : NumberSchema) : Option Literal := s.object.number? "minimum"
def exclusiveMinimum? (s : NumberSchema) : Option Literal := s.object.literal? "exclusiveMinimum"
def maximum? (s : NumberSchema) : Option Literal := s.object.number? "maximum"
def exclusiveMaximum? (s : NumberSchema) : Option Literal := s.object.literal? "exclusiveMaximum"

end NumberSchema

namespace BooleanSchema

def type (s : BooleanSchema) : Except Failure Literal :=
  s.object.requireText "type" "boolean schema"
def description? (s : BooleanSchema) : Option Literal := s.object.text? "description"
def default? (s : BooleanSchema) : Option Literal := s.object.literal? "default"
def const? (s : BooleanSchema) : Option Literal := s.object.literal? "const"

end BooleanSchema

namespace ArraySchema

def description? (s : ArraySchema) : Option Literal := s.object.text? "description"
def items (s : ArraySchema) : Except Failure (Option SchemaOrReference) :=
  s.object.child "items" SchemaOrReference.ofNode
def minItems? (s : ArraySchema) : Option Literal := s.object.number? "minItems"
def maxItems? (s : ArraySchema) : Option Literal := s.object.number? "maxItems"
def uniqueItems? (s : ArraySchema) : Option Literal := s.object.literal? "uniqueItems"

end ArraySchema

namespace ObjectSchema

def description? (s : ObjectSchema) : Option Literal := s.object.text? "description"

/-- The names of the properties that must be present. -/
def required (s : ObjectSchema) : Except Failure (List Literal) := do
  return (← s.object.literals "required").getD []

/-- The properties, each of which is a schema or a reference. -/
def properties (s : ObjectSchema) : Except Failure (Option Object) := s.object.index "properties"

/-- A member of a composition: a reference, an object schema, or nothing for all other schemas. -/
def member (node : Node) : Except Failure (Option (OrReference ObjectSchema)) :=
  if node.isReference then do return some (.reference (← Reference.ofNode node))
  else match Schema.classify node with
    | some (.object s) => .ok (some (.inline s))
    | _ => .ok none

/-- The members of a composition that can be members. -/
def composition (s : ObjectSchema) (name : String) :
    Except Failure (Option (List (OrReference ObjectSchema))) := do
  return (← s.object.array name member).map fun members => members.filterMap id

def allOf (s : ObjectSchema) : Except Failure (Option (List (OrReference ObjectSchema))) :=
  s.composition "allOf"
def oneOf (s : ObjectSchema) : Except Failure (Option (List (OrReference ObjectSchema))) :=
  s.composition "oneOf"
def anyOf (s : ObjectSchema) : Except Failure (Option (List (OrReference ObjectSchema))) :=
  s.composition "anyOf"
def minProperties? (s : ObjectSchema) : Option Literal := s.object.number? "minProperties"
def maxProperties? (s : ObjectSchema) : Option Literal := s.object.number? "maxProperties"

/-- Whether or how further properties may be present: a value, or a schema for them. -/
def additionalProperties (s : ObjectSchema) :
    Except Failure (Option (Literal ⊕ SchemaOrReference)) :=
  s.object.child "additionalProperties" fun node =>
    match node with
    | .literal l => .ok (.inl l)
    | _ => do return .inr (← SchemaOrReference.ofNode node)

end ObjectSchema

/-- A member of a composition as a schema. -/
def OrReference.asSchema : OrReference ObjectSchema → SchemaOrReference
  | .inline s => .inline (.object s)
  | .reference r => .reference r

end ServiceModel
