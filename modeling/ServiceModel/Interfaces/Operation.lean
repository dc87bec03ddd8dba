/-
An operation of a description becomes a method and the request that calls it. Both have the same
parameters, the body first; what the model of a service cannot show is recorded.
-/
import ServiceModel.Interfaces.Security
import ServiceModel.Synthesis.Describe

namespace ServiceModel

open Service

namespace OpenApi

/-! ## Contents -/

/-- The schema of the first media type of a content. That there are others is recorded. -/
def contentSchema (content : Option Object) : Build (Option SchemaOrReference) := do
  match content with
  | none => return none
  | some o => do
    if 1 < o.keys.length then Build.record (.violation ⟨.contentTypes, o.loc⟩)
    firstSchema (some o)

/-! ## Parameters -/

/-- The name of the parameter of a request body that has no other name. -/
def defaultBodyName : String := "body"

/-- The parameter that a request body is. -/
def bodyParameter (d : Description) (guards : Guards) (operation : Operation)
    (method : String) (metadata : Option (List MetaValue)) : Build (Option Service.Member) := do
  match ← operation.requestBody with
  | none => return none
  | some source => do
    let body ← source.resolve d.root RequestBody.ofNode
    match ← contentSchema (← body.content) with
    | none => return none
    | some schema => do
      let name := (bodyName? metadata).getD ⟨defaultBodyName, none⟩
      let resolved ← schema.resolve d.root
      let type ← describe d.root guards schema name.value method
      let rules ← resolved.rulesWhen d.root (Literal.isSet body.required?)
      return some {
        name
        description := body.description?.map fun l => .one l.locatedText
        type := ⟨type.type.typeName, type.type.isPrimitive, type.type.isArray, rules⟩
        default := none
        constant := none
        loc := some body.object.loc
        metadata := body.object.metadata }

/-- The places in a request where an array needs a style. -/
def arrayPlaces : List String := ["header", "path", "query"]

/-- The styles of arrays with the forms that they stand for. -/
def arrayStyles : List (String × String) :=
  [("simple", "csv"), ("spaceDelimited", "ssv"), ("pipeDelimited", "pipes")]

/-- The styles that have no form. -/
def unsupportedStyles : List String := ["matrix", "label"]

/-- The form of arrays when nothing else is said. -/
def defaultArrayForm : String := "csv"

/-- The form in which an array is written. -/
def arrayForm (p : Parameter) : Build (Located String) :=
  match p.style? with
  | none => return ⟨defaultArrayForm, none⟩
  | some style =>
    if unsupportedStyles.contains style.text then do
      Build.record (.violation ⟨.style style.text, style.loc⟩)
      return ⟨defaultArrayForm, some style.loc⟩
    else if style.text == "form" then
      return ⟨if Literal.isSet p.explode? then "multi" else defaultArrayForm, some style.loc⟩
    else
      return ⟨(arrayStyles.lookup style.text).getD defaultArrayForm, some style.loc⟩

/-- The parameter of a method that a parameter with a schema is. -/
def methodParameter (d : Description) (guards : Guards) (p : Parameter)
    (schema : SchemaOrReference) (method : String) : Build Service.Member := do
  let resolved ← schema.resolve d.root
  let name ← p.name
  let type ← describe d.root guards schema name.text method
  let rules ← resolved.rulesWhen d.root (Literal.isSet p.required?)
  return {
    name := name.locatedText
    description := p.description?.map fun l => .one l.locatedText
    type := ⟨type.type.typeName, type.type.isPrimitive, type.type.isArray, rules⟩
    default := type.default
    constant := type.constant
    loc := some p.object.loc
    metadata := p.object.metadata }

/-- The form of a parameter, if it is an array in a place where arrays need one. -/
def arrayFormAt (d : Description) (p : Parameter) (place : String) (schema : SchemaOrReference) :
    Build (Option (Located String)) :=
  if arrayPlaces.contains place then do
    match ← schema.resolve d.root with
    | .array _ => return some (← arrayForm p)
    | _ => return none
  else return none

/-- The parameter of a request that a parameter with a schema is. -/
def requestParameter (d : Description) (p : Parameter) (schema : SchemaOrReference) :
    Build HttpParameter := do
  let place ← p.location
  let form ← arrayFormAt d p place.text schema
  return ⟨(← p.name).locatedText, place.locatedText, form, some p.object.loc⟩

/-- A parameter of the method and of the request. A cookie is none, which is recorded. -/
def parameterOf (d : Description) (guards : Guards) (method : String)
    (source : OrReference Parameter) : Build (Option (Service.Member × HttpParameter)) := do
  let p ← source.resolve d.root Parameter.ofNode
  let place ← p.location
  if place.text == "cookie" then do
    Build.record (.violation ⟨.cookie, place.loc⟩)
    return none
  else do
    match ← p.schema with
    | none => do
      let name ← p.name
      Build.fail (.shape (.noSchema name.text p.object.start))
    | some schema => do
      let ours ← methodParameter d guards p schema method
      return some (ours, ← requestParameter d p schema)

/-- The parameter of a request that carries the body. -/
def bodyRequestParameter (body : Service.Member) : HttpParameter :=
  ⟨body.name, ⟨"body", none⟩, none, body.loc⟩

/-! ## Responses -/

/-- The response that says what success is. -/
structure PrimaryResponse where
  /-- The responses among which it stands. -/
  responses : Object
  key : String
  /-- The status code that the key is, unless the response is the default one. -/
  code : Option Int

/-- The key of the response for every status that has none of its own. -/
def defaultResponseKey : String := "default"

namespace Operation

/-- The response that says what success is: the first one whose key starts with a two, if that key
is a number, or else the default one. -/
def primaryResponse (o : Operation) : Except Failure (Option PrimaryResponse) := do
  match ← o.responses with
  | none => return none
  | some responses =>
    let keys := responses.distinctKeys
    let byDefault : Option PrimaryResponse :=
      if keys.contains defaultResponseKey then some ⟨responses, defaultResponseKey, none⟩ else none
    match keys.find? (·.toList.head? == some '2') with
    | none => return byDefault
    | some key =>
      match Text.Numeral.readDecimal key.toList with
      | none => return byDefault
      | some code => return some ⟨responses, key, some code⟩

end Operation

namespace PrimaryResponse

/-- What the response is. -/
def source (p : PrimaryResponse) : Except Failure (Option (OrReference Response)) :=
  p.responses.readEntry p.key (OrReference.ofNode Response.ofNode)

/-- The written span of the key of the response. -/
def loc (p : PrimaryResponse) : Option String := p.responses.keyLoc? p.key

end PrimaryResponse

/-- The name of the component that a response is, if it is one. -/
def componentName? : OrReference Response → Except Failure (Option String)
  | .inline _ => .ok none
  | .reference r => do return Pointer.responseName? (← r.pointer)

/-- What the method of an operation returns. -/
def returnTypeOf (d : Description) (guards : Guards) (operation : Operation) (method : String) :
    Build (Option ReturnType) := do
  match ← operation.primaryResponse with
  | none => return none
  | some primary =>
    match ← primary.source with
    | none => return none
    | some source => do
      let response ← source.resolve d.root Response.ofNode
      match ← contentSchema (← response.content) with
      | none => return none
      | some schema => do
        let parent := (← componentName? source).getD method
        let type ← describe d.root guards schema "response" parent
        return some ⟨type.type, some type.loc⟩

/-- The status code of success with a content when a description does not say, by verb. -/
def verbSuccess (verb : String) : Int :=
  match verb with
  | "delete" => 202
  | "options" => 204
  | "post" => 201
  | _ => 200

/-- The status code of success without a content when a description does not say. -/
def emptySuccess : Int := 204

/-- The status code of success. -/
def successCodeOf (d : Description) (verb : String) (operation : Operation) :
    Except Failure (Located Int) := do
  match ← operation.primaryResponse with
  | none => return ⟨200, none⟩
  | some primary =>
    match primary.code with
    | some code => return ⟨code, primary.loc⟩
    | none =>
      match ← primary.source with
      | none => return ⟨emptySuccess, primary.loc⟩
      | some source =>
        let response ← source.resolve d.root Response.ofNode
        match ← response.content with
        | some content =>
          if content.keys.isEmpty then return ⟨emptySuccess, primary.loc⟩
          else return ⟨verbSuccess verb, primary.loc⟩
        | none => return ⟨emptySuccess, primary.loc⟩

/-! ## Operations -/

/-- An operation in its place: below which path it stands, what its interface is named after and
what that is called, with its method and request. -/
structure BoundOperation where
  path : String
  sourceName : String
  interfaceName : String
  method : Method
  request : HttpMethod
  deriving Repr

/-- The name of methods without a name. -/
def unnamedMethod : String := "UNNAMED"

/-- The name of the requests of methods without a name. -/
def unnamedRequest : String := "unknown"

/-- A name, or what stands in its place when it is empty. -/
def nameOr (name fallback : String) : String := if name.isEmpty then fallback else name

/-- The summary and the description of an operation, as far as it has them. -/
def descriptionOf (o : Operation) : Option Prose :=
  match o.summary?, o.description? with
  | some summary, some detail => some (.several [summary.locatedText, detail.locatedText])
  | some summary, none => some (.one summary.locatedText)
  | none, some detail => some (.one detail.locatedText)
  | none, none => none

/-- What the interface of an operation is named after: its first tag, or else the first segment of
its path. -/
def sourceNameOf (path : String) (o : Operation) : Except Failure String := do
  match ← o.tags with
  | some (tag :: _) => return tag.text
  | _ =>
    match Text.cut '/' path.toList with
    | _ :: segment :: _ => return String.ofList segment
    | [segment] => return String.ofList segment
    | [] => return ""

/-- The method of an operation and the request that calls it. -/
def bind (d : Description) (guards : Guards) (item : PathItem) (path verb : String)
    (operation : Operation) : Build BoundOperation := do
  let sourceName ← sourceNameOf path operation
  let name := (operation.operationId?.map Literal.text).getD ""
  let nameLoc := operation.operationId?.map Literal.loc
  let loc := item.object.entryLoc? verb
  let metadata := operation.object.metadata
  let body ← bodyParameter d guards operation name metadata
  let sources := (← item.parameters) ++ (← operation.parameters)
  let parameters := (← sources.mapM (parameterOf d guards name)).filterMap id
  let security ← d.securityOptions operation
  let returnType ← returnTypeOf d guards operation name
  let successCode ← successCodeOf d verb operation
  return {
    path
    sourceName
    interfaceName := Naming.singular sourceName
    method := {
      name := ⟨nameOr name unnamedMethod, nameLoc⟩
      description := descriptionOf operation
      parameters := body.toList ++ parameters.map (·.1)
      security
      returnType
      deprecated := operation.deprecated?.bind Literal.flag?
      loc
      metadata }
    request := {
      name := ⟨nameOr name unnamedRequest, nameLoc⟩
      verb := ⟨verb, item.object.keyLoc? verb⟩
      parameters := (body.map bodyRequestParameter).toList ++ parameters.map (·.2)
      successCode
      loc } }

/-- The operations below one path. -/
def bindPath (d : Description) (guards : Guards) (paths : Object) (path : String) :
    Build (List BoundOperation) := do
  match ← paths.readEntry path (OrReference.ofNode PathItem.ofNode) with
  | none => return []
  | some source => do
    let item ← source.resolve d.root PathItem.ofNode
    (← item.operations).mapM fun (verb, operation) => bind d guards item path verb operation

/-- All operations of a description, in document order. -/
def bindAll (d : Description) (guards : Guards) (paths : Object) : Build (List BoundOperation) := do
  return (← paths.distinctKeys.mapM (bindPath d guards paths)).flatten

end OpenApi

end ServiceModel
