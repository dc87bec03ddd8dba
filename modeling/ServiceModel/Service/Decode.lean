/-
Reading a service back from its JSON form. A field that is missing has its default, if it has one,
and a member that is no field is refused. A field may also stand under its name with underscores;
numbers and truth values may be written as texts that spell them.
-/
import ServiceModel.Service.Encode
import ServiceModel.Service.Spelling

namespace ServiceModel.Service

open Json

/-! ## Records -/

/-- The members of a construct under the names of its fields. -/
abbrev Record := List (String × Json)

/-- The fields whose names have more than one word, or are spelled in two ways. -/
def longNames : List (String × String) :=
  [("type_name", "typeName"), ("is_primitive", "isPrimitive"), ("is_array", "isArray"),
    ("source_path", "sourcePath"), ("major_version", "majorVersion"),
    ("return_type", "returnType"), ("success_code", "successCode"),
    ("authorization_url", "authorizationUrl"), ("token_url", "tokenUrl"),
    ("refresh_url", "refreshUrl"), ("in_", "in")]

/-- The name of a field for a name that it may stand under; the first spelling goes before. -/
def fieldName (members : Record) (name : String) : String :=
  match longNames.lookup name with
  | some field => if (members.lookup field).isSome then name else field
  | none => name

/-- The record that an object is, if all its members are fields. -/
def record? (fields : List String) : Json → Option Record
  | .object members =>
    let record := members.map fun (name, value) => (fieldName members name, value)
    if record.all fun (name, _) => fields.contains name then some record else none
  | _ => none

namespace Record

/-- Does the record say that it is of a kind, or does it not say? -/
def isKind (record : Record) (kind : String) : Bool :=
  match record.lookup "kind" with
  | none => true
  | some (.string given) => given == kind
  | some _ => false

/-- A field that has to be present. -/
def required {α : Type} (record : Record) (name : String) (decode : Json → Option α) :
    Option α :=
  (record.lookup name).bind decode

/-- A field that may be missing. -/
def withDefault {α : Type} (record : Record) (name : String) (default : α)
    (decode : Json → Option α) : Option α :=
  match record.lookup name with
  | some value => decode value
  | none => some default

/-- A field that may be missing or null. -/
def optional {α : Type} (record : Record) (name : String) (decode : Json → Option α) :
    Option (Option α) :=
  match record.lookup name with
  | none => some none
  | some .null => some none
  | some value => (decode value).map some

/-- A list of items. -/
def items? {α : Type} (decode : Json → Option α) : Json → Option (List α)
  | .array items => items.mapM decode
  | _ => none

/-- A list that is empty when it is missing. -/
def list {α : Type} (record : Record) (name : String) (decode : Json → Option α) :
    Option (List α) :=
  record.withDefault name [] (items? decode)

end Record

/-! ## Values -/

/-- A text. -/
def text? : Json → Option String
  | .string s => some s
  | _ => none

/-- The truth value that a number is. -/
def flagOfInt? (i : Int) : Option Bool :=
  if i = 0 then some false else if i = 1 then some true else none

/-- A truth value. -/
def flag? : Json → Option Bool
  | .bool b => some b
  | .int i => flagOfInt? i
  | .double x => x.toInt?.bind flagOfInt?
  | .string s => Spelling.flag? s
  | _ => none

/-- The least size of the integers that are not written as a double precision number: `2^63`. -/
def leastLarge : Nat := 0x8000000000000000

/-- An integer. -/
def int? : Json → Option Int
  | .int i => some i
  | .bool b => some (if b then 1 else 0)
  | .double x => x.toInt?.filter (·.natAbs < leastLarge)
  | .string s => Spelling.int? s
  | _ => none

/-- True, or the number that counts as true. -/
def isAffirmed : Json → Bool
  | .bool b => b
  | .int i => i == 1
  | .double x => x.toInt? == some 1
  | _ => false

/-- A number. -/
def Number.ofJson? : Json → Option Number
  | .int i => some (.int i)
  | .double x => some (.double x)
  | .bool b => some (.int (if b then 1 else 0))
  | .string s =>
    match Spelling.int? s with
    | some i => some (.int i)
    | none => (Spelling.double? s).map .double
  | _ => none

/-- A value without parts. -/
def primitive? : Json → Option Primitive
  | .null => some .null
  | .bool b => some (.bool b)
  | .int i => some (.int i)
  | .double x => some (.double x)
  | .string s => some (.text s)
  | _ => none

/-- A value with its place. -/
def located? {α : Type} (decode : Json → Option α) (json : Json) : Option (Located α) := do
  let record ← record? ["value", "loc"] json
  return ⟨← record.required "value" decode, ← record.optional "loc" text?⟩

/-- A text with its place. -/
def locatedText? : Json → Option (Located String) := located? text?

/-- A value with its place. -/
def locatedPrimitive? : Json → Option (Located Primitive) := located? primitive?

/-- A number with its place. -/
def locatedNumber? : Json → Option (Located Number) := located? Number.ofJson?

def Prose.ofJson? : Json → Option Prose
  | .array items => (items.mapM locatedText?).map .several
  | json => (locatedText? json).map .one

def MetaValue.ofJson? (json : Json) : Option MetaValue := do
  let record ← record? ["key", "value"] json
  return ⟨← record.required "key" locatedText?, ← record.required "value" (located? some)⟩

/-- Metadata, which may be missing. -/
def metadata? (record : Record) : Option (Option (List MetaValue)) :=
  record.optional "meta" (Record.items? MetaValue.ofJson?)

/-! ## Rules -/

/-- The fields that all rules have. -/
def ruleFields : List String := ["kind", "loc", "id"]

/-- The constraint that is named by the identifier of a rule. -/
def Constraint.ofRecord? (json : Json) (id : String) : Option Constraint := do
  let read {α : Type} (name : String) (decode : Json → Option α) (make : α → Constraint) :
      Option Constraint := do
    return make (← (← record? (ruleFields ++ [name]) json).required name decode)
  match id with
  | "required" => do
    let _ ← record? ruleFields json
    return .required
  | "string-enum" => read "values" (Record.items? locatedPrimitive?) .stringEnum
  | "string-format" => read "format" locatedText? .stringFormat
  | "string-max-length" => read "length" locatedNumber? .stringMaxLength
  | "string-min-length" => read "length" locatedNumber? .stringMinLength
  | "string-pattern" => read "pattern" locatedText? .stringPattern
  | "number-multiple-of" => read "value" locatedNumber? .numberMultipleOf
  | "number-gt" => read "value" locatedNumber? .numberGt
  | "number-gte" => read "value" locatedNumber? .numberGte
  | "number-lt" => read "value" locatedNumber? .numberLt
  | "number-lte" => read "value" locatedNumber? .numberLte
  | "array-max-items" => read "max" locatedNumber? .arrayMaxItems
  | "array-min-items" => read "min" locatedNumber? .arrayMinItems
  | "array-unique-items" => do
    let record ← record? (ruleFields ++ ["required"]) json
    let given ← record.withDefault "required" true (some ∘ isAffirmed)
    if given then return .arrayUniqueItems else none
  | _ => none

def Rule.ofJson? (json : Json) : Option Rule := do
  match json.member? "id" with
  | some (.string id) => do
    let constraint ← Constraint.ofRecord? json id
    let record : Record ←
      match json with
      | .object members => some members
      | _ => none
    if record.isKind "ValidationRule" then
      return ⟨constraint, ← record.optional "loc" text?⟩
    else none
  | _ => none

/-- The constraint that is named by the identifier of a rule for properties. -/
def ObjectConstraint.ofRecord? (json : Json) (id : String) : Option ObjectConstraint := do
  match id with
  | "object-max-properties" => do
    let record ← record? (ruleFields ++ ["max"]) json
    return .maxProperties (← record.required "max" locatedNumber?)
  | "object-min-properties" => do
    let record ← record? (ruleFields ++ ["min"]) json
    return .minProperties (← record.required "min" locatedNumber?)
  | "object-additional-properties-forbidden" => do
    let record ← record? (ruleFields ++ ["forbidden"]) json
    let given ← record.withDefault "forbidden" true (some ∘ isAffirmed)
    if given then return .additionalForbidden else none
  | _ => none

def ObjectRule.ofJson? (json : Json) : Option ObjectRule := do
  match json.member? "id" with
  | some (.string id) => do
    let constraint ← ObjectConstraint.ofRecord? json id
    let record : Record ←
      match json with
      | .object members => some members
      | _ => none
    if record.isKind "ObjectValidationRule" then
      return ⟨constraint, ← record.optional "loc" text?⟩
    else none
  | _ => none

/-! ## Types and their uses -/

/-- The record of a construct of a kind. -/
def recordOf? (kind : String) (fields : List String) (json : Json) : Option Record := do
  let record ← record? ("kind" :: fields) json
  if record.isKind kind then return record else none

/-- The use of a type among the fields of a construct. -/
def typeUse? (record : Record) : Option TypeUse := do
  return ⟨← record.required "typeName" locatedText?, ← record.required "isPrimitive" flag?,
    ← record.required "isArray" flag?, ← record.list "rules" Rule.ofJson?⟩

def TypeUse.ofJson? (json : Json) : Option TypeUse := do
  typeUse? (← recordOf? "TypedValue" ["typeName", "isPrimitive", "isArray", "rules"] json)

/-- A property or a parameter, as the kind says. -/
def Member.ofJson? (kind : String) (json : Json) : Option Member := do
  let record ← recordOf? kind ["name", "description", "typeName", "isPrimitive", "isArray",
    "default", "constant", "rules", "loc", "meta"] json
  return ⟨← record.required "name" locatedText?, ← record.optional "description" Prose.ofJson?,
    ← typeUse? record, ← record.optional "default" locatedPrimitive?,
    ← record.optional "constant" locatedPrimitive?, ← record.optional "loc" text?,
    ← metadata? record⟩

def ReturnType.ofJson? (json : Json) : Option ReturnType := do
  let record ← recordOf? "ReturnType" ["typeName", "isPrimitive", "isArray", "rules", "loc"] json
  return ⟨← typeUse? record, ← record.optional "loc" text?⟩

def TypeDef.ofJson? (json : Json) : Option TypeDef := do
  let record ← recordOf? "Type" ["name", "description", "properties", "rules", "loc", "meta"] json
  return ⟨← record.required "name" locatedText?, ← record.optional "description" locatedText?,
    ← record.list "properties" (Member.ofJson? propertyKind),
    ← record.list "rules" ObjectRule.ofJson?, ← record.optional "loc" text?, ← metadata? record⟩

def EnumValue.ofJson? (json : Json) : Option EnumValue := do
  let record ← recordOf? "EnumValue" ["content", "loc"] json
  return ⟨← record.required "content" locatedPrimitive?, ← record.optional "loc" text?⟩

def EnumDef.ofJson? (json : Json) : Option EnumDef := do
  let record ← recordOf? "Enum" ["name", "values", "loc"] json
  return ⟨← record.required "name" locatedText?,
    ← record.required "values" (Record.items? EnumValue.ofJson?), ← record.optional "loc" text?⟩

def UnionDef.ofJson? (json : Json) : Option UnionDef := do
  let record ← recordOf? "Union" ["name", "members", "loc", "meta"] json
  return ⟨← record.required "name" locatedText?,
    ← record.required "members" (Record.items? TypeUse.ofJson?), ← record.optional "loc" text?,
    ← metadata? record⟩

/-! ## Security -/

def Scope.ofJson? (json : Json) : Option Scope := do
  let record ← recordOf? "OAuth2Scope" ["name", "description", "loc"] json
  return ⟨← record.required "name" locatedText?, ← record.optional "description" locatedText?,
    ← record.optional "loc" text?⟩

/-- The fields that all flows have. -/
def flowFields : List String := ["kind", "type", "refreshUrl", "scopes", "loc"]

/-- The way of granting that belongs to a kind of flow, with the record of the flow. -/
def Grant.ofJson? (json : Json) (kind : String) : Option (Grant × Record) := do
  match kind with
  | "OAuth2ImplicitFlow" => do
    let record ← record? (flowFields ++ ["authorizationUrl"]) json
    return (.implicit (← record.optional "authorizationUrl" locatedText?), record)
  | "OAuth2PasswordFlow" => do
    let record ← record? (flowFields ++ ["tokenUrl"]) json
    return (.password (← record.optional "tokenUrl" locatedText?), record)
  | "OAuth2ClientCredentialsFlow" => do
    let record ← record? (flowFields ++ ["tokenUrl"]) json
    return (.clientCredentials (← record.optional "tokenUrl" locatedText?), record)
  | "OAuth2AuthorizationCodeFlow" => do
    let record ← record? (flowFields ++ ["authorizationUrl", "tokenUrl"]) json
    return (.authorizationCode (← record.optional "authorizationUrl" locatedText?)
      (← record.optional "tokenUrl" locatedText?), record)
  | _ => none

def Flow.ofJson? (json : Json) : Option Flow := do
  match json.member? "kind" with
  | some (.string kind) => do
    let (grant, record) ← Grant.ofJson? json kind
    return ⟨grant, ← record.required "type" locatedText?,
      ← record.optional "refreshUrl" locatedText?, ← record.list "scopes" Scope.ofJson?,
      ← record.optional "loc" text?⟩
  | _ => none

/-- The fields that all schemes have. -/
def schemeFields : List String := ["kind", "type", "name", "description", "loc", "meta"]

/-- The credential that belongs to a kind of scheme, with the record of the scheme. -/
def Credential.ofJson? (json : Json) (kind : String) : Option (Credential × Record) := do
  match kind with
  | "BasicScheme" => do return (.basic, ← record? schemeFields json)
  | "ApiKeyScheme" => do
    let record ← record? (schemeFields ++ ["parameter", "in"]) json
    return (.apiKey (← record.required "parameter" locatedText?)
      (← record.required "in" locatedText?), record)
  | "OAuth2Scheme" => do
    let record ← record? (schemeFields ++ ["flows"]) json
    return (.oauth2 (← record.list "flows" Flow.ofJson?), record)
  | _ => none

def Scheme.ofJson? (json : Json) : Option Scheme := do
  match json.member? "kind" with
  | some (.string kind) => do
    let (credential, record) ← Credential.ofJson? json kind
    return ⟨credential, ← record.required "type" locatedText?,
      ← record.required "name" locatedText?, ← record.optional "description" locatedText?,
      ← record.optional "loc" text?, ← metadata? record⟩
  | _ => none

def SecurityOption.ofJson? (json : Json) : Option SecurityOption := do
  let record ← recordOf? "SecurityOption" ["schemes"] json
  return ⟨← record.list "schemes" Scheme.ofJson?⟩

/-! ## Methods and their HTTP bindings -/

def Method.ofJson? (json : Json) : Option Method := do
  let record ← recordOf? "Method" ["name", "description", "parameters", "security", "returnType",
    "deprecated", "loc", "meta"] json
  return ⟨← record.required "name" locatedText?, ← record.optional "description" Prose.ofJson?,
    ← record.list "parameters" (Member.ofJson? parameterKind),
    ← record.list "security" SecurityOption.ofJson?,
    ← record.optional "returnType" ReturnType.ofJson?,
    ← record.optional "deprecated" (located? flag?), ← record.optional "loc" text?,
    ← metadata? record⟩

def HttpParameter.ofJson? (json : Json) : Option HttpParameter := do
  let record ← recordOf? "HttpParameter" ["name", "in", "array", "loc"] json
  return ⟨← record.required "name" locatedText?, ← record.required "in" locatedText?,
    ← record.optional "array" locatedText?, ← record.optional "loc" text?⟩

def HttpMethod.ofJson? (json : Json) : Option HttpMethod := do
  let record ← recordOf? "HttpMethod" ["name", "verb", "parameters", "successCode", "loc"] json
  return ⟨← record.required "name" locatedText?, ← record.required "verb" locatedText?,
    ← record.list "parameters" HttpParameter.ofJson?,
    ← record.required "successCode" (located? int?), ← record.optional "loc" text?⟩

def HttpPath.ofJson? (json : Json) : Option HttpPath := do
  let record ← recordOf? "HttpPath" ["path", "methods", "loc"] json
  return ⟨← record.required "path" locatedText?, ← record.list "methods" HttpMethod.ofJson?,
    ← record.optional "loc" text?⟩

/-- The requests of an interface, in the record of its protocols. -/
def protocols? (json : Json) : Option (List HttpPath) := do
  (← record? ["http"] json).list "http" HttpPath.ofJson?

def Interface.ofJson? (json : Json) : Option Interface := do
  let record ← recordOf? "Interface" ["name", "description", "methods", "protocols"] json
  return ⟨← record.required "name" locatedText?, ← record.optional "description" locatedText?,
    ← record.list "methods" Method.ofJson?, ← record.withDefault "protocols" [] protocols?⟩

/-- The service that a JSON value is the form of. -/
def ofJson? (json : Json) : Option Service := do
  let record ← recordOf? "Service" ["sourcePath", "title", "majorVersion", "interfaces", "types",
    "enums", "unions", "loc", "meta"] json
  return {
    sourcePath := ← record.required "sourcePath" text?
    title := ← record.required "title" locatedText?
    majorVersion := ← record.required "majorVersion" (located? int?)
    interfaces := ← record.list "interfaces" Interface.ofJson?
    types := ← record.list "types" TypeDef.ofJson?
    enums := ← record.list "enums" EnumDef.ofJson?
    unions := ← record.list "unions" UnionDef.ofJson?
    loc := ← record.optional "loc" text?
    metadata := ← metadata? record }

end ServiceModel.Service
