/-
Models of the description language. What is proved of conversions that are checked against a model
holds of any model, or of any that does not look at the order of members; the outline of the
language does not.
-/
import ServiceModel.Conversion
import ServiceModel.Proofs.Document.Members

namespace ServiceModel

namespace LanguageModel

/-- The document is a description in the eyes of the model. -/
def Admits (model : LanguageModel) (root : Node) : Prop := model.misfit? root.toJson = none

/-- Whether a value is a description does not depend on the order of members in it. -/
def IgnoresOrder (model : LanguageModel) : Prop :=
  ∀ {json json' : Json}, json.Rearranged json' →
    (model.misfit? json = none ↔ model.misfit? json' = none)

/-- The check of a document that is an object is up to the model alone. -/
theorem check_ok_iff (model : LanguageModel) (source : String) (o : Object) :
    model.check source o.node = .ok () ↔ model.Admits o.node := by
  have isObject : o.node.object?.isSome = true := rfl
  rw [check, Admits, isObject]
  cases model.misfit? o.node.toJson with
  | none => exact iff_of_true rfl rfl
  | some reason => exact iff_of_false nofun nofun

end LanguageModel

/-! ## The outline of the language -/

namespace Json.Rearranged

variable {json json' : Json} (h : json.Rearranged json')

include h

theorem hasObject (name : String) : json.hasObject name = json'.hasObject name := by
  have found := h.member? name
  unfold Json.hasObject
  generalize json.member? name = value, json'.member? name = value' at found
  cases found with
  | none => rfl
  | some here => cases here <;> rfl

theorem hasText (name : String) : json.hasText name = json'.hasText name := by
  have found := h.member? name
  unfold Json.hasText
  generalize json.member? name = value, json'.member? name = value' at found
  cases found with
  | none => rfl
  | some here => cases here <;> rfl

theorem isSome_member? (name : String) :
    (json.member? name).isSome = (json'.member? name).isSome := by
  have found := h.member? name
  generalize json.member? name = value, json'.member? name = value' at found
  cases found <;> rfl

theorem hasRequiredFields :
    ServiceModel.hasRequiredFields json = ServiceModel.hasRequiredFields json' := by
  have info := h.member? "info"
  unfold ServiceModel.hasRequiredFields
  rw [h.isSome_member?, h.hasObject, h.hasObject]
  generalize json.member? "info" = value, json'.member? "info" = value' at info
  cases info with
  | none => rfl
  | some here =>
    dsimp only
    rw [here.hasText, here.hasText]

end Json.Rearranged

theorem LanguageModel.outline_ignoresOrder : LanguageModel.outline.IgnoresOrder := by
  intro json json' h
  show (if hasRequiredFields json then none else some "") = none ↔
    (if hasRequiredFields json' then none else some "") = none
  rw [h.hasRequiredFields]

end ServiceModel
