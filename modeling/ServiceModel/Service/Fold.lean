/-
Keeping one definition for every name: the last one, at the place of the first.
-/
import ServiceModel.Service.Basic

namespace ServiceModel.Service

variable {α : Type}

/-- Puts a definition in the place of the one with its name, or at the end if there is none. -/
def putByName (name : α → String) (item : α) : List α → List α
  | [] => [item]
  | x :: rest => if name x = name item then item :: rest else x :: putByName name item rest

/-- One definition for every name. -/
def foldByName (name : α → String) (items : List α) : List α :=
  items.foldl (fun kept item => putByName name item kept) []

/-- One type for every name. -/
def foldTypes : List TypeDef → List TypeDef := foldByName (·.name.value)

/-- One enum for every name. -/
def foldEnums : List EnumDef → List EnumDef := foldByName (·.name.value)

/-- One union for every name. -/
def foldUnions : List UnionDef → List UnionDef := foldByName (·.name.value)

end ServiceModel.Service
