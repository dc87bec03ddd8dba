/-
The constructs of an OpenAPI description as views of object nodes. Each has its fields under
their names; a field that may be written in place or referred to gives either.
-/
import ServiceModel.OpenApi.Schema
import ServiceModel.OpenApi.SecurityScheme

namespace ServiceModel.OpenApi

/-! ## Constructs -/

structure Example where
  object : Object
  deriving Repr

structure MediaType where
  object : Object
  deriving Repr

structure Header where
  object : Object
  deriving Repr

structure Parameter where
  object : Object
  deriving Repr

structure RequestBody where
  object : Object
  deriving Repr

structure Link where
  object : Object
  deriving Repr

structure Response where
  object : Object
  deriving Repr

/-- The schemes that have to be satisfied together, each with its scopes. -/
structure SecurityRequirement where
  object : Object
  deriving Repr

structure Operation where
  object : Object
  deriving Repr

structure PathItem where
  object : Object
  deriving Repr

/-- Path items under run-time expressions. -/
structure Callback where
  object : Object
  deriving Repr

structure Components where
  object : Object
  deriving Repr

structure Tag where
  object : Object
  deriving Repr

structure Info where
  object : Object
  deriving Repr

/-- A whole description. -/
structure Description where
  object : Object
  deriving Repr

/-! ## Fields -/

namespace Example

def ofNode (node : Node) : Except Failure Example := do return ⟨← node.asObject "example"⟩
def summary? (e : Example) : Option Literal := e.object.text? "summary"
def description? (e : Example) : Option Literal := e.object.text? "description"
def value? (e : Example) : Option Node := e.object.value? "value"
def externalValue? (e : Example) : Option Literal := e.object.text? "externalValue"

end Example

namespace MediaType

def ofNode (node : Node) : Except Failure MediaType := do
  return ⟨← node.asObject "media type"⟩
def schema (m : MediaType) : Except Failure (Option SchemaOrReference) :=
  m.object.child "schema" SchemaOrReference.ofNode
def example? (m : MediaType) : Option Node := m.object.value? "example"
def examples (m : MediaType) : Except Failure (Option Object) := m.object.index "examples"

end MediaType

/-- The schema of the first media type of a content. -/
def firstSchema (content : Option Object) : Except Failure (Option SchemaOrReference) :=
  match content with
  | none => .ok none
  | some o =>
    match o.keys with
    | [] => .ok none
    | first :: _ => do
      match ← o.readEntry first MediaType.ofNode with
      | some mediaType => mediaType.schema
      | none => return none

namespace Header

def ofNode (node : Node) : Except Failure Header := do return ⟨← node.asObject "header"⟩
def description? (h : Header) : Option Literal := h.object.text? "description"
def required? (h : Header) : Option Literal := h.object.literal? "required"
def schema (h : Header) : Except Failure (Option SchemaOrReference) :=
  h.object.child "schema" SchemaOrReference.ofNode

end Header

namespace Parameter

def ofNode (node : Node) : Except Failure Parameter := do return ⟨← node.asObject "parameter"⟩
def name (p : Parameter) : Except Failure Literal := p.object.requireText "name" "parameter"
def location (p : Parameter) : Except Failure Literal := p.object.requireText "in" "parameter"
def description? (p : Parameter) : Option Literal := p.object.text? "description"
def required? (p : Parameter) : Option Literal := p.object.literal? "required"
def deprecated? (p : Parameter) : Option Literal := p.object.literal? "deprecated"
def style? (p : Parameter) : Option Literal := p.object.text? "style"
def explode? (p : Parameter) : Option Literal := p.object.literal? "explode"
def content (p : Parameter) : Except Failure (Option Object) := p.object.index "content"

/-- The schema of the parameter, or else that of the first media type of its content. -/
def schema (p : Parameter) : Except Failure (Option SchemaOrReference) := do
  match ← p.object.child "schema" SchemaOrReference.ofNode with
  | some schema => return some schema
  | none => firstSchema (← p.content)

end Parameter

namespace RequestBody

def ofNode (node : Node) : Except Failure RequestBody := do
  return ⟨← node.asObject "request body"⟩
def description? (b : RequestBody) : Option Literal := b.object.text? "description"
def required? (b : RequestBody) : Option Literal := b.object.literal? "required"
def content (b : RequestBody) : Except Failure (Option Object) := b.object.index "content"

end RequestBody

namespace Link

def ofNode (node : Node) : Except Failure Link := do return ⟨← node.asObject "link"⟩
def operationRef? (l : Link) : Option Literal := l.object.text? "operationRef"
def operationId? (l : Link) : Option Literal := l.object.text? "operationId"
def description? (l : Link) : Option Literal := l.object.text? "description"

end Link

namespace Response

def ofNode (node : Node) : Except Failure Response := do return ⟨← node.asObject "response"⟩
def description? (r : Response) : Option Literal := r.object.text? "description"
def headers (r : Response) : Except Failure (Option Object) := r.object.index "headers"
def content (r : Response) : Except Failure (Option Object) := r.object.index "content"
def links (r : Response) : Except Failure (Option Object) := r.object.index "links"

end Response

namespace SecurityRequirement

def ofNode (node : Node) : Except Failure SecurityRequirement := do
  return ⟨← node.asObject "security requirement"⟩
def scopes (r : SecurityRequirement) (scheme : String) : Except Failure (Option (List Literal)) :=
  r.object.literals scheme

end SecurityRequirement

namespace Operation

def ofNode (node : Node) : Except Failure Operation := do return ⟨← node.asObject "operation"⟩
def tags (o : Operation) : Except Failure (Option (List Literal)) := o.object.literals "tags"
def summary? (o : Operation) : Option Literal := o.object.text? "summary"
def description? (o : Operation) : Option Literal := o.object.text? "description"
def operationId? (o : Operation) : Option Literal := o.object.text? "operationId"
def parameters (o : Operation) : Except Failure (List (OrReference Parameter)) := do
  return (← o.object.array "parameters" (OrReference.ofNode Parameter.ofNode)).getD []
def requestBody (o : Operation) : Except Failure (Option (OrReference RequestBody)) :=
  o.object.child "requestBody" (OrReference.ofNode RequestBody.ofNode)
def responses (o : Operation) : Except Failure (Option Object) := o.object.index "responses"
def callbacks (o : Operation) : Except Failure (Option Object) := o.object.index "callbacks"
def deprecated? (o : Operation) : Option Literal := o.object.literal? "deprecated"
def security (o : Operation) : Except Failure (Option (List SecurityRequirement)) :=
  o.object.array "security" SecurityRequirement.ofNode

end Operation

/-- The names under which a path item holds operations. -/
def verbs : List String :=
  ["get", "put", "post", "delete", "options", "head", "patch", "trace"]

namespace PathItem

def ofNode (node : Node) : Except Failure PathItem := do return ⟨← node.asObject "path item"⟩
def summary? (p : PathItem) : Option Literal := p.object.text? "summary"
def description? (p : PathItem) : Option Literal := p.object.text? "description"
def parameters (p : PathItem) : Except Failure (List (OrReference Parameter)) := do
  return (← p.object.array "parameters" (OrReference.ofNode Parameter.ofNode)).getD []

/-- The operations with their verbs, in document order. -/
def operations (p : PathItem) : Except Failure (List (String × Operation)) := do
  let found ← (p.object.distinctKeys.filter verbs.contains).mapM fun verb => do
    return (← p.object.readEntry verb Operation.ofNode).map fun operation => (verb, operation)
  return found.filterMap id

end PathItem

namespace Callback

def ofNode (node : Node) : Except Failure Callback := do return ⟨← node.asObject "callback"⟩

end Callback

namespace Components

def ofNode (node : Node) : Except Failure Components := do
  return ⟨← node.asObject "components"⟩
def schemas (c : Components) : Except Failure (Option Object) := c.object.index "schemas"
def responses (c : Components) : Except Failure (Option Object) := c.object.index "responses"
def parameters (c : Components) : Except Failure (Option Object) := c.object.index "parameters"
def examples (c : Components) : Except Failure (Option Object) := c.object.index "examples"
def requestBodies (c : Components) : Except Failure (Option Object) :=
  c.object.index "requestBodies"
def headers (c : Components) : Except Failure (Option Object) := c.object.index "headers"
def securitySchemes (c : Components) : Except Failure (Option Object) :=
  c.object.index "securitySchemes"
def links (c : Components) : Except Failure (Option Object) := c.object.index "links"
def callbacks (c : Components) : Except Failure (Option Object) := c.object.index "callbacks"

end Components

namespace Tag

def ofNode (node : Node) : Except Failure Tag := do return ⟨← node.asObject "tag"⟩
def name (t : Tag) : Except Failure Literal := t.object.requireText "name" "tag"
def description? (t : Tag) : Option Literal := t.object.text? "description"

end Tag

namespace Info

def ofNode (node : Node) : Except Failure Info := do return ⟨← node.asObject "info"⟩
def title (i : Info) : Except Failure Literal := i.object.requireText "title" "info"

/-- The version of the service, which need not be a text. -/
def version (i : Info) : Except Failure Literal :=
  match i.object.literal? "version" with
  | some l => .ok l
  | none => .error (.shape (.missingText "version" "info" i.object.start))

def description? (i : Info) : Option Literal := i.object.text? "description"

end Info

namespace Description

def ofNode (node : Node) : Except Failure Description := do
  return ⟨← node.asObject "OpenAPI document"⟩
def openapi? (d : Description) : Option Literal := d.object.literal? "openapi"

def info (d : Description) : Except Failure Info := do
  match ← d.object.child "info" Info.ofNode with
  | some info => return info
  | none => .error (.shape .noInfo)

def paths (d : Description) : Except Failure (Option Object) := d.object.index "paths"
def components (d : Description) : Except Failure (Option Components) :=
  d.object.child "components" Components.ofNode
def security (d : Description) : Except Failure (Option (List SecurityRequirement)) :=
  d.object.array "security" SecurityRequirement.ofNode
def tags (d : Description) : Except Failure (List Tag) := do
  return (← d.object.array "tags" Tag.ofNode).getD []

end Description

end ServiceModel.OpenApi
