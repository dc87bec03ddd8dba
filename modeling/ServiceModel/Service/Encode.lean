/-
The JSON form of a service. Every field of a construct is present, also one without a value, in
one fixed order; the constructs that come in variants say which one they are. Numbers in metadata
are finite: null stands for the others.
-/
import ServiceModel.Service.Basic

namespace ServiceModel

namespace Json

/-- A value that may be missing. -/
def ofOption {α : Type} (encode : α → Json) : Option α → Json
  | some value => encode value
  | none => .null

/-- A list of values. -/
def ofList {α : Type} (encode : α → Json) (values : List α) : Json :=
  .array (values.map encode)

/-- A span, if there is one. -/
def ofLoc : Option String → Json := ofOption .string

end Json

/-- A value with its place. -/
def Located.toJson {α : Type} (encode : α → Json) (x : Located α) : Json :=
  .object [("value", encode x.value), ("loc", Json.ofLoc x.loc)]

namespace Service

open Json

/-! ## Values -/

/-- A text with its place. -/
def textJson (x : Located String) : Json := x.toJson .string

/-- A text with its place, if there is one. -/
def optionalText : Option (Located String) → Json := ofOption textJson

/-- A value with its place. -/
def primitiveJson (x : Located Primitive) : Json := x.toJson Primitive.toJson

def Number.toJson : Number → Json
  | .int i => .int i
  | .double x => .double x

/-- A number with its place. -/
def numberJson (x : Located Number) : Json := x.toJson Number.toJson

def Prose.toJson : Prose → Json
  | .one text => textJson text
  | .several texts => ofList textJson texts

def MetaValue.toJson (m : MetaValue) : Json :=
  .object [("key", textJson m.key), ("value", m.value.toJson Json.finiteOnly)]

/-- Metadata, if there are some. -/
def metadataJson : Option (List MetaValue) → Json := ofOption (ofList MetaValue.toJson)

/-! ## Rules -/

namespace Constraint

/-- The name of the kind of constraint. -/
def id : Constraint → String
  | .required => "required"
  | .stringEnum _ => "string-enum"
  | .stringFormat _ => "string-format"
  | .stringMaxLength _ => "string-max-length"
  | .stringMinLength _ => "string-min-length"
  | .stringPattern _ => "string-pattern"
  | .numberMultipleOf _ => "number-multiple-of"
  | .numberGt _ => "number-gt"
  | .numberGte _ => "number-gte"
  | .numberLt _ => "number-lt"
  | .numberLte _ => "number-lte"
  | .arrayMaxItems _ => "array-max-items"
  | .arrayMinItems _ => "array-min-items"
  | .arrayUniqueItems => "array-unique-items"

/-- What the constraint is about. -/
def members : Constraint → List (String × Json)
  | .required => []
  | .stringEnum values => [("values", ofList primitiveJson values)]
  | .stringFormat format => [("format", textJson format)]
  | .stringMaxLength length => [("length", numberJson length)]
  | .stringMinLength length => [("length", numberJson length)]
  | .stringPattern pattern => [("pattern", textJson pattern)]
  | .numberMultipleOf value => [("value", numberJson value)]
  | .numberGt value => [("value", numberJson value)]
  | .numberGte value => [("value", numberJson value)]
  | .numberLt value => [("value", numberJson value)]
  | .numberLte value => [("value", numberJson value)]
  | .arrayMaxItems max => [("max", numberJson max)]
  | .arrayMinItems min => [("min", numberJson min)]
  | .arrayUniqueItems => [("required", .bool true)]

end Constraint

def Rule.toJson (r : Rule) : Json :=
  .object ([("kind", .string "ValidationRule"), ("loc", ofLoc r.loc),
    ("id", .string r.constraint.id)] ++ r.constraint.members)

namespace ObjectConstraint

/-- The name of the kind of constraint. -/
def id : ObjectConstraint → String
  | .maxProperties _ => "object-max-properties"
  | .minProperties _ => "object-min-properties"
  | .additionalForbidden => "object-additional-properties-forbidden"

/-- What the constraint is about. -/
def members : ObjectConstraint → List (String × Json)
  | .maxProperties max => [("max", numberJson max)]
  | .minProperties min => [("min", numberJson min)]
  | .additionalForbidden => [("forbidden", .bool true)]

end ObjectConstraint

def ObjectRule.toJson (r : ObjectRule) : Json :=
  .object ([("kind", .string "ObjectValidationRule"), ("loc", ofLoc r.loc),
    ("id", .string r.constraint.id)] ++ r.constraint.members)

/-! ## Types and their uses -/

def TypeUse.toJson (t : TypeUse) : Json :=
  .object [("kind", .string "TypedValue"), ("typeName", textJson t.typeName),
    ("isPrimitive", .bool t.isPrimitive), ("isArray", .bool t.isArray),
    ("rules", ofList Rule.toJson t.rules)]

/-- A property or a parameter, as the kind says. -/
def Member.toJson (kind : String) (m : Member) : Json :=
  .object [("kind", .string kind), ("name", textJson m.name),
    ("description", ofOption Prose.toJson m.description),
    ("typeName", textJson m.type.typeName), ("isPrimitive", .bool m.type.isPrimitive),
    ("isArray", .bool m.type.isArray), ("default", ofOption primitiveJson m.default),
    ("constant", ofOption primitiveJson m.constant), ("rules", ofList Rule.toJson m.type.rules),
    ("loc", ofLoc m.loc), ("meta", metadataJson m.metadata)]

/-- The kind of the properties of types. -/
def propertyKind : String := "Property"

/-- The kind of the parameters of methods. -/
def parameterKind : String := "Parameter"

def ReturnType.toJson (r : ReturnType) : Json :=
  .object [("kind", .string "ReturnType"), ("typeName", textJson r.type.typeName),
    ("isPrimitive", .bool r.type.isPrimitive), ("isArray", .bool r.type.isArray),
    ("rules", ofList Rule.toJson r.type.rules), ("loc", ofLoc r.loc)]

def TypeDef.toJson (t : TypeDef) : Json :=
  .object [("kind", .string "Type"), ("name", textJson t.name),
    ("description", optionalText t.description),
    ("properties", ofList (Member.toJson propertyKind) t.properties),
    ("rules", ofList ObjectRule.toJson t.rules), ("loc", ofLoc t.loc),
    ("meta", metadataJson t.metadata)]

def EnumValue.toJson (v : EnumValue) : Json :=
  .object [("kind", .string "EnumValue"), ("content", primitiveJson v.content),
    ("loc", ofLoc v.loc)]

def EnumDef.toJson (e : EnumDef) : Json :=
  .object [("kind", .string "Enum"), ("name", textJson e.name),
    ("values", ofList EnumValue.toJson e.values), ("loc", ofLoc e.loc)]

def UnionDef.toJson (u : UnionDef) : Json :=
  .object [("kind", .string "Union"), ("name", textJson u.name),
    ("members", ofList TypeUse.toJson u.members), ("loc", ofLoc u.loc),
    ("meta", metadataJson u.metadata)]

/-! ## Security -/

def Scope.toJson (s : Scope) : Json :=
  .object [("kind", .string "OAuth2Scope"), ("name", textJson s.name),
    ("description", optionalText s.description), ("loc", ofLoc s.loc)]

namespace Grant

/-- The kind of a flow that grants in this way. -/
def kind : Grant → String
  | .implicit _ => "OAuth2ImplicitFlow"
  | .password _ => "OAuth2PasswordFlow"
  | .clientCredentials _ => "OAuth2ClientCredentialsFlow"
  | .authorizationCode _ _ => "OAuth2AuthorizationCodeFlow"

/-- The addresses that the grant needs. -/
def members : Grant → List (String × Json)
  | .implicit authorizationUrl => [("authorizationUrl", optionalText authorizationUrl)]
  | .password tokenUrl => [("tokenUrl", optionalText tokenUrl)]
  | .clientCredentials tokenUrl => [("tokenUrl", optionalText tokenUrl)]
  | .authorizationCode authorizationUrl tokenUrl =>
    [("authorizationUrl", optionalText authorizationUrl), ("tokenUrl", optionalText tokenUrl)]

end Grant

def Flow.toJson (f : Flow) : Json :=
  .object ([("kind", .string f.grant.kind), ("type", textJson f.type)] ++ f.grant.members ++
    [("refreshUrl", optionalText f.refreshUrl), ("scopes", ofList Scope.toJson f.scopes),
      ("loc", ofLoc f.loc)])

namespace Credential

/-- The kind of a scheme with this credential. -/
def kind : Credential → String
  | .basic => "BasicScheme"
  | .apiKey _ _ => "ApiKeyScheme"
  | .oauth2 _ => "OAuth2Scheme"

/-- What the credential consists of. -/
def members : Credential → List (String × Json)
  | .basic => []
  | .apiKey parameter place => [("parameter", textJson parameter), ("in", textJson place)]
  | .oauth2 flows => [("flows", ofList Flow.toJson flows)]

end Credential

def Scheme.toJson (s : Scheme) : Json :=
  .object ([("kind", .string s.credential.kind), ("type", textJson s.type),
    ("name", textJson s.name), ("description", optionalText s.description)] ++
    s.credential.members ++ [("loc", ofLoc s.loc), ("meta", metadataJson s.metadata)])

def SecurityOption.toJson (o : SecurityOption) : Json :=
  .object [("kind", .string "SecurityOption"), ("schemes", ofList Scheme.toJson o.schemes)]

/-! ## Methods and their HTTP bindings -/

def Method.toJson (m : Method) : Json :=
  .object [("kind", .string "Method"), ("name", textJson m.name),
    ("description", ofOption Prose.toJson m.description),
    ("parameters", ofList (Member.toJson parameterKind) m.parameters),
    ("security", ofList SecurityOption.toJson m.security),
    ("returnType", ofOption ReturnType.toJson m.returnType),
    ("deprecated", ofOption (Located.toJson .bool) m.deprecated), ("loc", ofLoc m.loc),
    ("meta", metadataJson m.metadata)]

def HttpParameter.toJson (p : HttpParameter) : Json :=
  .object [("kind", .string "HttpParameter"), ("name", textJson p.name),
    ("in", textJson p.place), ("array", optionalText p.array), ("loc", ofLoc p.loc)]

def HttpMethod.toJson (m : HttpMethod) : Json :=
  .object [("kind", .string "HttpMethod"), ("name", textJson m.name), ("verb", textJson m.verb),
    ("parameters", ofList HttpParameter.toJson m.parameters),
    ("successCode", m.successCode.toJson .int), ("loc", ofLoc m.loc)]

def HttpPath.toJson (p : HttpPath) : Json :=
  .object [("kind", .string "HttpPath"), ("path", textJson p.path),
    ("methods", ofList HttpMethod.toJson p.methods), ("loc", ofLoc p.loc)]

def Interface.toJson (i : Interface) : Json :=
  .object [("kind", .string "Interface"), ("name", textJson i.name),
    ("description", optionalText i.description), ("methods", ofList Method.toJson i.methods),
    ("protocols", .object [("http", ofList HttpPath.toJson i.http)])]

/-- The JSON form of a service. -/
def toJson (s : Service) : Json :=
  .object [("kind", .string "Service"), ("sourcePath", .string s.sourcePath),
    ("title", textJson s.title), ("majorVersion", s.majorVersion.toJson .int),
    ("interfaces", ofList Interface.toJson s.interfaces), ("types", ofList TypeDef.toJson s.types),
    ("enums", ofList EnumDef.toJson s.enums), ("unions", ofList UnionDef.toJson s.unions),
    ("loc", ofLoc s.loc), ("meta", metadataJson s.metadata)]

/-! ## Diagnostics -/

/-- The code of all diagnostics. -/
def Violation.code : String := "openapi-3/unsupported-feature"

/-- The JSON form of a diagnostic for the description at a path. -/
def Violation.toJson (sourcePath : String) (v : Violation) : Json :=
  .object [("code", .string Violation.code), ("message", .string v.feature.message),
    ("range", .string v.loc), ("severity", .string "warning"), ("sourcePath", .string sourcePath)]

end Service

end ServiceModel
