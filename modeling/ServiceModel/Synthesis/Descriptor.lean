/-
What is known of a type where it is used, and the parts of the synthesis of types that do not
recur: names, primitive types and enums.
-/
import ServiceModel.Naming.Singular
import ServiceModel.OpenApi.Rules

namespace ServiceModel

open Service

/-- The use of a type, with the values that its schema gives and the span of that schema. -/
structure Descriptor where
  type : TypeUse
  default : Option (Located Primitive)
  constant : Option (Located Primitive)
  loc : String
  deriving DecidableEq, Repr

namespace Descriptor

/-- The use of a type that has a definition. -/
def named (name : Located String) (rules : List Rule) (loc : String) : Descriptor :=
  ⟨⟨name, false, false, rules⟩, none, none, loc⟩

/-- The use of a primitive type. -/
def primitive (name : Located String) (rules : List Rule) (default constant : Option Literal)
    (loc : String) : Descriptor :=
  ⟨⟨name, true, false, rules⟩, default.map Literal.located, constant.map Literal.located, loc⟩

/-- An array of what an item is the use of. -/
def arrayOf (item : Descriptor) (rules : List Rule) (loc : String) : Descriptor :=
  ⟨⟨item.type.typeName, item.type.isPrimitive, true, rules⟩, none, none, loc⟩

end Descriptor

/-! ## Names -/

namespace Naming

/-- The name of a type that has no name of its own, from the names of its place. -/
def ofShape (parent name : String) : String := camel (parent ++ "_" ++ name)

/-- The name of an enum that has no name of its own. -/
def ofEnum (parent name : String) : String := camel (parent ++ "_" ++ singular name)

end Naming

namespace StringSchema

/-- The formats that are types of their own. -/
def formatTypes : List String := ["date", "date-time"]

/-- The primitive type of the schema. -/
def typeName (s : StringSchema) : Except Failure (Located String) := do
  match s.format?.filter (formatTypes.contains ·.text) with
  | some format => return ⟨format.text, some s.object.loc⟩
  | none => return (← s.type).locatedText

end StringSchema

namespace NumberSchema

/-- The formats that narrow a type, with the types that they narrow it to. -/
def formatTypes : List ((String × String) × String) :=
  [(("integer", "int32"), "integer"), (("integer", "int64"), "long"),
    (("number", "float"), "float"), (("number", "double"), "double")]

/-- The primitive type of the schema. -/
def typeName (s : NumberSchema) : Except Failure (Located String) := do
  let type ← s.type
  match s.format?.bind fun format => formatTypes.lookup (type.text, format.text) with
  | some narrowed => return ⟨narrowed, some s.object.loc⟩
  | none => return type.locatedText

end NumberSchema

namespace BooleanSchema

/-- The primitive type of the schema. -/
def typeName (s : BooleanSchema) : Except Failure (Located String) := do
  return (← s.type).locatedText

end BooleanSchema

/-! ## Enums -/

/-- The values of an enum: of values of one kind that are the same, the first. -/
def distinctLiterals (values : List Literal) : List Literal :=
  values.eraseDupsBy fun l m => l.value.same m.value

namespace StringSchema

/-- The enum that the schema lists the values of. -/
def enumDef (s : StringSchema) (name : Located String) (values : List Literal) : EnumDef :=
  ⟨name, (distinctLiterals values).map fun l => ⟨l.located, some l.loc⟩,
    s.object.entryLoc? "enum"⟩

end StringSchema

end ServiceModel
