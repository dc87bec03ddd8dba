/-
The names of component schemas and the pointers to them. A pointer names a component when nothing
but one name follows the place where the components stand.
-/
import ServiceModel.Document.Pointer

namespace ServiceModel.Pointer

open Text (after?)

/-- What pointers to component schemas start with. -/
def schemasLead : String := "#/components/schemas/"

/-- What pointers to component responses start with. -/
def responsesLead : String := "#/components/responses/"

/-- The name of the component schema that a pointer leads to, if it leads to one. -/
def schemaName? (pointer : String) : Option String :=
  match after? schemasLead.toList pointer.toList with
  | none => none
  | some written =>
    if written.isEmpty || written.contains '/' then none
    else some (String.ofList (unescape written))

/-- The pointer to the component schema with a name. -/
def ofSchemaName (name : String) : String :=
  schemasLead ++ String.ofList (escape name.toList)

/-- What follows the place of the component responses in a pointer to one of them. -/
def responseName? (pointer : String) : Option String :=
  match after? responsesLead.toList pointer.toList with
  | none => none
  | some [] => none
  | some written => some (String.ofList written)

end ServiceModel.Pointer
