/-
The rules that a schema gives for its values. Each rule comes from one field and has the span of
that field; the rules of a kind of schema stand in a fixed order.
-/
import ServiceModel.OpenApi.Metadata
import ServiceModel.OpenApi.Schema

namespace ServiceModel

open Service

namespace Object

/-- The rule that the entry under a name stands for. -/
def rule (o : Object) (name : String) (constraint : Constraint) : Rule :=
  ⟨constraint, o.entryLoc? name⟩

/-- The rule of a number under a name, if there is one. -/
def amountRule (o : Object) (name : String) (constraint : Located Number → Constraint) :
    List Rule :=
  match (o.number? name).bind Literal.amount? with
  | some amount => [o.rule name (constraint amount)]
  | none => []

/-- The rule of a text under a name, if there is one. -/
def textRule (o : Object) (name : String) (constraint : Located String → Constraint) :
    List Rule :=
  match o.text? name with
  | some l => [o.rule name (constraint l.locatedText)]
  | none => []

/-- The rule of a number under a name for the number of properties, if there is one. -/
def propertyCountRule (o : Object) (name : String)
    (constraint : Located Number → ObjectConstraint) : List ObjectRule :=
  match (o.number? name).bind Literal.amount? with
  | some amount => [⟨constraint amount, o.entryLoc? name⟩]
  | none => []

end Object

namespace StringSchema

def rules (s : StringSchema) : Except Failure (List Rule) := do
  let listed :=
    match ← s.enum with
    | some values => [s.object.rule "enum" (.stringEnum (values.map Literal.located))]
    | none => []
  return listed ++ s.object.textRule "format" .stringFormat ++
    s.object.amountRule "maxLength" .stringMaxLength ++
    s.object.amountRule "minLength" .stringMinLength ++
    s.object.textRule "pattern" .stringPattern

end StringSchema

namespace NumberSchema

/-- Are the bounds exclusive? One field says so for both of them. -/
def isExclusive (s : NumberSchema) : Bool := Literal.isSet s.exclusiveMinimum?

def rules (s : NumberSchema) : List Rule :=
  s.object.amountRule "multipleOf" .numberMultipleOf ++
    s.object.amountRule "minimum" (if s.isExclusive then .numberGt else .numberGte) ++
    s.object.amountRule "maximum" (if s.isExclusive then .numberLt else .numberLte)

end NumberSchema

namespace ArraySchema

/-- The rules for the array itself. -/
def rules (s : ArraySchema) : List Rule :=
  s.object.amountRule "maxItems" .arrayMaxItems ++
    s.object.amountRule "minItems" .arrayMinItems ++
    if Literal.isSet s.uniqueItems? then [s.object.rule "uniqueItems" .arrayUniqueItems] else []

end ArraySchema

namespace ObjectSchema

/-- The rules for the properties as a whole. Further properties are forbidden by the truth value
false alone; a schema in its place describes them. -/
def rules (s : ObjectSchema) : List ObjectRule :=
  s.object.propertyCountRule "maxProperties" .maxProperties ++
    s.object.propertyCountRule "minProperties" .minProperties ++
    match s.object.literal? "additionalProperties" with
    | some ⟨.bool false, _⟩ =>
      [⟨.additionalForbidden, s.object.entryLoc? "additionalProperties"⟩]
    | _ => []

end ObjectSchema

namespace Schema

/-- The rules of the schema without those of its items. -/
def ownRules : Schema → Except Failure (List Rule)
  | .string s => s.rules
  | .number s => .ok s.rules
  | .boolean _ => .ok []
  | .array s => .ok s.rules
  | .object _ => .ok []

/-- The rules of the items of an array, no rules for other schemas. -/
def itemRules (root : Node) : Schema → Except Failure (List Rule)
  | .array s => do
    match ← s.items with
    | some items => (← items.resolve root).ownRules
    | none => return []
  | _ => .ok []

/-- The rules of the schema and then, in the case of an array, those of its items. -/
def rules (root : Node) (schema : Schema) : Except Failure (List Rule) := do
  let own ← schema.ownRules
  return own ++ (← schema.itemRules root)

/-- The rules of a schema for a value that may have to be present. -/
def rulesWhen (root : Node) (isRequired : Bool) (schema : Schema) :
    Except Failure (List Rule) := do
  let rules ← schema.rules root
  return if isRequired then ⟨.required, none⟩ :: rules else rules

end Schema

end ServiceModel
