/-
The model of a service: its interfaces with their methods and HTTP bindings, and the types, enums
and unions that they use. What was read from a description carries the written span that it was
read from.
-/
import ServiceModel.Primitive

namespace ServiceModel

/-- A value with the written span that it was read from, if it was read from one. -/
structure Located (α : Type) where
  value : α
  loc : Option String
  deriving DecidableEq, Repr, Inhabited

namespace Service

/-! ## Values -/

/-- A number, integer or double precision. -/
inductive Number where
  | int (value : Int)
  | double (value : Double)
  deriving DecidableEq, Repr, Inhabited

/-- What a construct says about itself: one text, or several. -/
inductive Prose where
  | one (text : Located String)
  | several (texts : List (Located String))
  deriving DecidableEq, Repr

/-- An extension, under its name without the mark of extensions. -/
structure MetaValue where
  key : Located String
  value : Located Json
  deriving Repr

/-! ## Rules -/

/-- What a value has to satisfy. -/
inductive Constraint where
  /-- The value is present. -/
  | required
  | stringEnum (values : List (Located Primitive))
  | stringFormat (format : Located String)
  | stringMaxLength (length : Located Number)
  | stringMinLength (length : Located Number)
  | stringPattern (pattern : Located String)
  | numberMultipleOf (value : Located Number)
  | numberGt (value : Located Number)
  | numberGte (value : Located Number)
  | numberLt (value : Located Number)
  | numberLte (value : Located Number)
  | arrayMaxItems (max : Located Number)
  | arrayMinItems (min : Located Number)
  | arrayUniqueItems
  deriving DecidableEq, Repr

/-- A rule for a value. -/
structure Rule where
  constraint : Constraint
  loc : Option String
  deriving DecidableEq, Repr

/-- What the properties of a type have to satisfy together. -/
inductive ObjectConstraint where
  | maxProperties (max : Located Number)
  | minProperties (min : Located Number)
  /-- There are no properties but those of the type. -/
  | additionalForbidden
  deriving DecidableEq, Repr

/-- A rule for the values of a type. -/
structure ObjectRule where
  constraint : ObjectConstraint
  loc : Option String
  deriving DecidableEq, Repr

/-! ## Types and their uses -/

/-- The use of a type: a primitive one or one with a definition, or an array of those. -/
structure TypeUse where
  typeName : Located String
  isPrimitive : Bool
  isArray : Bool
  rules : List Rule
  deriving DecidableEq, Repr

/-- A property of a type or a parameter of a method. -/
structure Member where
  name : Located String
  description : Option Prose
  type : TypeUse
  default : Option (Located Primitive)
  constant : Option (Located Primitive)
  loc : Option String
  metadata : Option (List MetaValue)
  deriving Repr

/-- A type with properties. -/
structure TypeDef where
  name : Located String
  description : Option (Located String)
  properties : List Member
  rules : List ObjectRule
  loc : Option String
  metadata : Option (List MetaValue)
  deriving Repr

/-- A value of an enum. -/
structure EnumValue where
  content : Located Primitive
  loc : Option String
  deriving DecidableEq, Repr

/-- A type with listed values. -/
structure EnumDef where
  name : Located String
  values : List EnumValue
  loc : Option String
  deriving DecidableEq, Repr

/-- A type whose values are those of its members. -/
structure UnionDef where
  name : Located String
  members : List TypeUse
  loc : Option String
  metadata : Option (List MetaValue)
  deriving Repr

/-! ## Security -/

/-- A right that a flow can grant. -/
structure Scope where
  name : Located String
  description : Option (Located String)
  loc : Option String
  deriving DecidableEq, Repr

/-- How a flow grants rights. -/
inductive Grant where
  | implicit (authorizationUrl : Option (Located String))
  | password (tokenUrl : Option (Located String))
  | clientCredentials (tokenUrl : Option (Located String))
  | authorizationCode (authorizationUrl tokenUrl : Option (Located String))
  deriving DecidableEq, Repr

/-- A flow of OAuth 2. -/
structure Flow where
  grant : Grant
  type : Located String
  refreshUrl : Option (Located String)
  scopes : List Scope
  loc : Option String
  deriving DecidableEq, Repr

/-- How a caller proves who it is. -/
inductive Credential where
  | basic
  | apiKey (parameter place : Located String)
  | oauth2 (flows : List Flow)
  deriving DecidableEq, Repr

/-- A security scheme. -/
structure Scheme where
  credential : Credential
  type : Located String
  name : Located String
  description : Option (Located String)
  loc : Option String
  metadata : Option (List MetaValue)
  deriving Repr

/-- Schemes that have to be satisfied together. -/
structure SecurityOption where
  schemes : List Scheme
  deriving Repr

/-! ## Methods and their HTTP bindings -/

/-- What a method returns. -/
structure ReturnType where
  type : TypeUse
  loc : Option String
  deriving DecidableEq, Repr

/-- A method. -/
structure Method where
  name : Located String
  description : Option Prose
  parameters : List Member
  security : List SecurityOption
  returnType : Option ReturnType
  deprecated : Option (Located Bool)
  loc : Option String
  metadata : Option (List MetaValue)
  deriving Repr

/-- Where a parameter stands in a request, and how an array is written there. -/
structure HttpParameter where
  name : Located String
  place : Located String
  array : Option (Located String)
  loc : Option String
  deriving DecidableEq, Repr

/-- A method as a request. -/
structure HttpMethod where
  name : Located String
  verb : Located String
  parameters : List HttpParameter
  successCode : Located Int
  loc : Option String
  deriving DecidableEq, Repr

/-- The requests that go to one path. -/
structure HttpPath where
  path : Located String
  methods : List HttpMethod
  loc : Option String
  deriving DecidableEq, Repr

/-- Methods that belong together, and their requests. -/
structure Interface where
  name : Located String
  description : Option (Located String)
  methods : List Method
  http : List HttpPath
  deriving Repr

end Service

open Service in
/-- A service. -/
structure Service where
  sourcePath : String
  title : Located String
  majorVersion : Located Int
  interfaces : List Interface
  types : List TypeDef
  enums : List EnumDef
  unions : List UnionDef
  loc : Option String
  metadata : Option (List MetaValue)
  deriving Repr

namespace Service

/-! ## Diagnostics -/

/-- A feature of a description that the model of a service cannot show. -/
inductive Unsupported where
  /-- A content has several types. -/
  | contentTypes
  /-- A parameter is sent as a cookie. -/
  | cookie
  /-- An array is written in a style of paths. -/
  | style (name : String)
  deriving DecidableEq, Repr

/-- What is done without the feature. -/
def Unsupported.message : Unsupported → String
  | .contentTypes =>
    "Multiple content types are not yet supported. The first content type will be used and all " ++
      "following content types will be ignored."
  | .cookie => "Cookie is not yet supported. This parameter will be ignored."
  | .style name =>
    "Parameter style '" ++ name ++ "' is not yet supported. " ++
      "The default 'csv' array style will be used instead."

/-- The use of an unsupported feature. -/
structure Violation where
  feature : Unsupported
  loc : String
  deriving DecidableEq, Repr

end Service

end ServiceModel
