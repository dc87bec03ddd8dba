/-
The structural validation of a service: every type that is used and not primitive is defined, and
no two definitions of one collection share a name. Every defect is reported with the place of its
construct in the JSON form of the service.
-/
import ServiceModel.Service.Basic

namespace ServiceModel.Service

/-- What is wrong with the structure of a service. -/
inductive Defect where
  /-- At a place, a type is used that is not defined. -/
  | undefinedType (place : List String) (name : String)
  /-- In a collection, a name occurs more than once. -/
  | repeatedName (collection name : String) (count : Nat)
  deriving DecidableEq, Repr

namespace Defect

/-- The place of the defect. -/
def path : Defect → String
  | .undefinedType place _ => "/" ++ String.intercalate "/" place
  | .repeatedName collection _ _ => "/" ++ collection

/-- The defect in words. -/
def message : Defect → String
  | .undefinedType _ name => "Type '" ++ name ++ "' is not defined as a type, enum or union"
  | .repeatedName _ name count => "Name '" ++ name ++ "' appears " ++ toString count ++ " times"

end Defect

/-! ## Uses of types and their places -/

/-- The places of the items of a collection. -/
def placed {α : Type} (place : List String) (items : List α) : List (List String × α) :=
  items.zipIdx.map fun (item, i) => (place ++ [toString i], item)

/-- The uses of types in a method. -/
def Method.uses (place : List String) (m : Method) : List (List String × TypeUse) :=
  (placed (place ++ ["parameters"]) m.parameters).map (fun (here, p) => (here, p.type)) ++
    (m.returnType.map fun r => (place ++ ["returnType"], r.type)).toList

/-- The uses of types in an interface. -/
def Interface.uses (place : List String) (i : Interface) : List (List String × TypeUse) :=
  (placed (place ++ ["methods"]) i.methods).flatMap fun (here, m) => m.uses here

/-- The uses of types in a type. -/
def TypeDef.uses (place : List String) (t : TypeDef) : List (List String × TypeUse) :=
  (placed (place ++ ["properties"]) t.properties).map fun (here, p) => (here, p.type)

/-- The uses of types in a union. -/
def UnionDef.uses (place : List String) (u : UnionDef) : List (List String × TypeUse) :=
  placed (place ++ ["members"]) u.members

/-- All uses of types in a service, with their places. -/
def uses (s : Service) : List (List String × TypeUse) :=
  (placed ["interfaces"] s.interfaces).flatMap (fun (here, i) => i.uses here) ++
    (placed ["types"] s.types).flatMap (fun (here, t) => t.uses here) ++
    (placed ["unions"] s.unions).flatMap (fun (here, u) => u.uses here)

/-! ## Defects -/

/-- The names of what is defined. -/
def definedNames (s : Service) : List String :=
  s.types.map (·.name.value) ++ s.enums.map (·.name.value) ++ s.unions.map (·.name.value)

/-- The uses of types that are not defined. -/
def closureDefects (s : Service) : List Defect :=
  s.uses.filterMap fun (place, use) =>
    if use.isPrimitive || s.definedNames.contains use.typeName.value then none
    else some (.undefinedType place use.typeName.value)

/-- The names that occur more than once in a collection. -/
def repeatedNames (collection : String) (names : List String) : List Defect :=
  (names.eraseDups.filter (1 < names.count ·)).map fun name =>
    .repeatedName collection name (names.count name)

/-- The names that occur more than once in the collections of a service. -/
def uniquenessDefects (s : Service) : List Defect :=
  repeatedNames "types" (s.types.map (·.name.value)) ++
    repeatedNames "enums" (s.enums.map (·.name.value)) ++
    repeatedNames "unions" (s.unions.map (·.name.value)) ++
    repeatedNames "interfaces" (s.interfaces.map (·.name.value))

/-- All defects of a service. -/
def defects (s : Service) : List Defect := s.closureDefects ++ s.uniquenessDefects

/-- The defects as a report with one line for each. -/
def report (defects : List Defect) : String :=
  String.intercalate "\n" (("Validation errors: " ++ toString defects.length) ::
    defects.map fun defect => "- " ++ defect.path ++ ": " ++ defect.message)

end ServiceModel.Service
