/-
The conversion of a description into a service: its text becomes a tree, the tree a description,
and the description a service. The interfaces come first, then the types of the components; what
both passes define is then kept once for every name.
-/
import ServiceModel.Interfaces.Basic
import ServiceModel.OpenApi.Version
import ServiceModel.Service.Fold

namespace ServiceModel

open Service OpenApi

/-! ## The description language -/

/-- A model of the description language. It says of a plain document why it is no description, in
words of its own, and nothing of one that is a description. -/
class LanguageModel where
  misfit? : Json → Option String

namespace Json

/-- Is there a member that is an object? -/
def hasObject (json : Json) (name : String) : Bool :=
  match json.member? name with
  | some (.object _) => true
  | _ => false

/-- Is there a member that is a text? -/
def hasText (json : Json) (name : String) : Bool :=
  match json.member? name with
  | some (.string _) => true
  | _ => false

end Json

/-- Does a description have the fields without which it is none? -/
def hasRequiredFields (json : Json) : Bool :=
  (json.member? "openapi").isSome && json.hasObject "info" && json.hasObject "paths" &&
    match json.member? "info" with
    | some info => info.hasText "title" && info.hasText "version"
    | none => false

/-- The outline of the description language, for which a description is what has the fields that
every description has. It stands in where no model is given, and finds no words. -/
instance LanguageModel.outline : LanguageModel where
  misfit? json := if hasRequiredFields json then none else some ""

/-- How a description is converted. -/
structure Options where
  /-- Where the description comes from. -/
  sourcePath : String := ""
  /-- How many references and compositions may be nested. -/
  limit : Int := Guards.defaultLimit
  /-- Is the description checked against the description language first? -/
  strict : Bool := false
  /-- What it is checked against then. -/
  [model : LanguageModel]

/-- What a description without a source is called. -/
def unnamedSource : String := "<document>"

/-- What the source of a description is called. -/
def sourceName (path : String) : String := if path.isEmpty then unnamedSource else path

/-- Fails when a tree is no description in the eyes of a model. -/
def LanguageModel.check (model : LanguageModel) (source : String) (root : Node) :
    Except Failure Unit :=
  if !root.object?.isSome then .error (.load (.notMapping source))
  else
    match model.misfit? root.toJson with
    | none => .ok ()
    | some reason => .error (.load (.invalid source reason))

/-! ## Components -/

namespace OpenApi.Description

/-- The type of a component, if the component is an object. -/
def componentType (d : Description) (guards : Guards) (schemas : Object) (name : String) :
    Build (Option TypeDef) := do
  match ← schemas.readEntry name SchemaOrReference.ofNode with
  | none => return none
  | some source => do
    let inner ← guards.enter (Pointer.ofSchemaName name)
    match ← source.resolve d.root with
    | .object s => do
      let properties ← propertiesOf d.root inner s name []
      Build.record (.component name)
      return some ⟨⟨name, schemas.keyLoc? name⟩, s.description?.map Literal.locatedText,
        properties, s.rules, schemas.entryLoc? name, s.object.metadata⟩
    | _ => return none

/-- The types of the components that are objects. -/
def componentTypes (d : Description) (guards : Guards) : Build (List TypeDef) := do
  match ← d.components with
  | none => return []
  | some components =>
    match ← components.schemas with
    | none => return []
    | some schemas =>
      return (← schemas.distinctKeys.mapM (d.componentType guards schemas)).filterMap id

/-! ## Services -/

/-- The title and the major version of the service. -/
def titleAndMajor (d : Description) : Except Failure (Located String × Located Int) := do
  let info ← d.info
  let version ← info.version
  match Version.major? version.value with
  | none => .error (.shape (.noMajorVersion version.value))
  | some major =>
    let title ← info.title
    return (⟨Naming.pascal title.text, some title.loc⟩, ⟨major, some version.loc⟩)

/-- The service that a description describes. -/
def service (d : Description) (options : Options) : Build Service := do
  let guards := Guards.none options.limit
  let ((interfaces, components), journal) ← Build.listen do
    let interfaces ← interfacesOf d guards
    return (interfaces, ← d.componentTypes guards)
  let (title, majorVersion) ← d.titleAndMajor
  return {
    sourcePath := options.sourcePath
    title
    majorVersion
    interfaces
    types := foldTypes (components ++ journal.filterMap Entry.type?)
    enums := foldEnums (journal.filterMap Entry.enum?)
    unions := foldUnions (journal.filterMap Entry.union?)
    loc := some d.object.loc
    metadata := d.object.metadata }

end OpenApi.Description

/-- The description that a tree is. -/
def descriptionOfTree (options : Options) (root : Node) : Except Failure Description := do
  if options.strict then options.model.check (sourceName options.sourcePath) root
  let d ← Description.ofNode root
  d.checkVersion
  return d

/-- The service that a tree describes. -/
def convertTree (options : Options) (root : Node) : Build Service := do
  let d ← descriptionOfTree options root
  d.service options

/-- The tree of a text. -/
def treeOf (text : String) : Except Failure Node := (Node.read text).mapError .read

/-- The service that a text describes. What it has that cannot be shown is in the journal. -/
def convert (options : Options) (text : String) : Build Service := do
  convertTree options (← treeOf text)

/-- The uses of unsupported features in a journal. -/
def violationsIn (journal : List Entry) : List Violation := journal.filterMap Entry.violation?

end ServiceModel
