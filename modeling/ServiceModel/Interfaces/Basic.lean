/-
The interfaces of a service. Operations belong together when the names that their interfaces are
named after have the same singular; interfaces stand in the order in which operations first need
them, and inside an interface the paths and the methods keep the order of the operations.
-/
import ServiceModel.Interfaces.Operation

namespace ServiceModel.OpenApi

open Service

/-- The requests of an interface, path by path. -/
def requestsOf (paths : Object) (operations : List BoundOperation) : List HttpPath :=
  (operations.map (·.path)).eraseDups.map fun path =>
    ⟨⟨path, paths.keyLoc? path⟩, (operations.filter (·.path == path)).map (·.request),
      paths.entryLoc? path⟩

/-- The description of the first tag with a name. -/
def tagDescription (d : Description) (name : String) :
    Except Failure (Option (Located String)) := do
  let rec find : List Tag → Except Failure (Option (Located String))
    | [] => return none
    | tag :: rest => do
      if (← tag.name).text == name then return tag.description?.map Literal.locatedText
      else find rest
  find (← d.tags)

/-- The interface with a name, made of its operations. Of their tags the first describes it. -/
def interfaceOf (d : Description) (paths : Object) (name : String)
    (operations : List BoundOperation) : Except Failure Interface := do
  let description ← tagDescription d ((operations.head?.map (·.sourceName)).getD name)
  return ⟨⟨name, none⟩, description, operations.map (·.method), requestsOf paths operations⟩

/-- The interfaces that operations form. -/
def groupInterfaces (d : Description) (paths : Object) (operations : List BoundOperation) :
    Except Failure (List Interface) :=
  (operations.map (·.interfaceName)).eraseDups.mapM fun name =>
    interfaceOf d paths name (operations.filter (·.interfaceName == name))

/-- The interfaces of a description. -/
def interfacesOf (d : Description) (guards : Guards) : Build (List Interface) := do
  let interfaces : List Interface ←
    match ← d.paths with
    | none => pure []
    | some paths => do
      let operations ← bindAll d guards paths
      groupInterfaces d paths operations
  Build.record (.interfaces interfaces.length)
  return interfaces

end ServiceModel.OpenApi
