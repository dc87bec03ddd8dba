/-
A conversion under two limits. What ends in anything but the failure that the limit is exceeded
ends in the same way under every larger limit, with the same service or failure and the same
records. The guards reach the synthesis of types through the parameters, bodies and responses of
operations and through the components, and each of these only hands them on.
-/
import ServiceModel.Proofs.Conversion.Outcome
import ServiceModel.Proofs.Synthesis.Limit

namespace ServiceModel

open Build (Extends)

namespace OpenApi

variable {d : Description} {guards : Guards} {limit : Int}

/-! ## Operations -/

theorem bodyParameter_extends (h : guards.limit ≤ limit) (operation : Operation)
    (method : String) (metadata : Option (List Service.MetaValue)) :
    Extends (bodyParameter d guards operation method metadata)
      (bodyParameter d (guards.under limit) operation method metadata) := by
  unfold bodyParameter
  refine Extends.lift_bind fun found _ => ?_
  cases found with
  | none => exact .refl _
  | some source =>
    refine Extends.lift_bind fun body _ => ?_
    refine Extends.lift_bind fun content _ => ?_
    refine Extends.bind (.refl _) fun schema _ => ?_
    cases schema with
    | none => exact .refl _
    | some schema =>
      refine Extends.lift_bind fun resolved _ => ?_
      exact Extends.bind (describe_extends d.root h _ _ _) fun type _ => .refl _

theorem methodParameter_extends (h : guards.limit ≤ limit) (p : Parameter)
    (schema : SchemaOrReference) (method : String) :
    Extends (methodParameter d guards p schema method)
      (methodParameter d (guards.under limit) p schema method) := by
  unfold methodParameter
  refine Extends.lift_bind fun resolved _ => ?_
  refine Extends.lift_bind fun name _ => ?_
  exact Extends.bind (describe_extends d.root h _ _ _) fun type _ => .refl _

theorem parameterOf_extends (h : guards.limit ≤ limit) (method : String)
    (source : OrReference Parameter) :
    Extends (parameterOf d guards method source)
      (parameterOf d (guards.under limit) method source) := by
  unfold parameterOf
  refine Extends.lift_bind fun p _ => ?_
  refine Extends.lift_bind fun place _ => ?_
  by_cases hc : (place.text == "cookie") = true
  · rw [if_pos hc, if_pos hc]
    exact .refl _
  · rw [if_neg hc, if_neg hc]
    refine Extends.lift_bind fun schema _ => ?_
    cases schema with
    | none => exact .refl _
    | some schema =>
      exact Extends.bind (methodParameter_extends h p schema method) fun ours _ => .refl _

theorem returnTypeOf_extends (h : guards.limit ≤ limit) (operation : Operation)
    (method : String) :
    Extends (returnTypeOf d guards operation method)
      (returnTypeOf d (guards.under limit) operation method) := by
  unfold returnTypeOf
  refine Extends.lift_bind fun primary _ => ?_
  cases primary with
  | none => exact .refl _
  | some primary =>
    refine Extends.lift_bind fun source _ => ?_
    cases source with
    | none => exact .refl _
    | some source =>
      refine Extends.lift_bind fun response _ => ?_
      refine Extends.lift_bind fun content _ => ?_
      refine Extends.bind (.refl _) fun schema _ => ?_
      cases schema with
      | none => exact .refl _
      | some schema =>
        refine Extends.lift_bind fun component _ => ?_
        exact Extends.bind (describe_extends d.root h _ _ _) fun type _ => .refl _

theorem bind_extends (h : guards.limit ≤ limit) (item : PathItem) (path verb : String)
    (operation : Operation) :
    Extends (bind d guards item path verb operation)
      (bind d (guards.under limit) item path verb operation) := by
  unfold bind
  refine Extends.lift_bind fun sourceName _ => ?_
  refine Extends.bind (bodyParameter_extends h _ _ _) fun body _ => ?_
  refine Extends.lift_bind fun shared _ => ?_
  refine Extends.lift_bind fun own _ => ?_
  refine Extends.bind (Extends.mapM fun source _ => parameterOf_extends h _ source) ?_
  intro parameters _
  refine Extends.lift_bind fun security _ => ?_
  exact Extends.bind (returnTypeOf_extends h _ _) fun returnType _ => .refl _

theorem bindPath_extends (h : guards.limit ≤ limit) (paths : Object) (path : String) :
    Extends (bindPath d guards paths path) (bindPath d (guards.under limit) paths path) := by
  unfold bindPath
  refine Extends.lift_bind fun source _ => ?_
  cases source with
  | none => exact .refl _
  | some source =>
    refine Extends.lift_bind fun item _ => ?_
    refine Extends.lift_bind fun operations _ => ?_
    exact Extends.mapM fun found _ => bind_extends h item path found.1 found.2

theorem bindAll_extends (h : guards.limit ≤ limit) (paths : Object) :
    Extends (bindAll d guards paths) (bindAll d (guards.under limit) paths) :=
  Extends.bind (Extends.mapM fun path _ => bindPath_extends h paths path) fun _ _ => .refl _

theorem interfacesOf_extends (h : guards.limit ≤ limit) :
    Extends (interfacesOf d guards) (interfacesOf d (guards.under limit)) := by
  unfold interfacesOf
  refine Extends.lift_bind fun found _ => ?_
  cases found with
  | none => exact .refl _
  | some paths =>
    exact Extends.bind (bindAll_extends h paths) fun _ _ => .refl _

/-! ## Components -/

namespace Description

theorem componentType_extends (h : guards.limit ≤ limit) (schemas : Object) (name : String) :
    Extends (d.componentType guards schemas name)
      (d.componentType (guards.under limit) schemas name) := by
  unfold componentType
  refine Extends.lift_bind fun source _ => ?_
  cases source with
  | none => exact .refl _
  | some source =>
    refine Guards.enter_bind_extends h fun inner hi => ?_
    refine Extends.lift_bind fun target _ => ?_
    cases target with
    | object s =>
      have hl : inner.limit ≤ limit := by rw [Guards.enter_limit hi]; exact h
      exact Extends.bind (propertiesOf_extends d.root hl s name []) fun _ _ => .refl _
    | _ => exact .refl _

theorem componentTypes_extends (h : guards.limit ≤ limit) :
    Extends (d.componentTypes guards) (d.componentTypes (guards.under limit)) := by
  unfold componentTypes
  refine Extends.lift_bind fun components _ => ?_
  cases components with
  | none => exact .refl _
  | some components =>
    refine Extends.lift_bind fun schemas _ => ?_
    cases schemas with
    | none => exact .refl _
    | some schemas =>
      have each := Extends.mapM fun name (_ : name ∈ schemas.distinctKeys) =>
        componentType_extends (d := d) h schemas name
      exact Extends.bind each fun _ _ => .refl _

/-! ## Conversions -/

theorem passes_extends (h : guards.limit ≤ limit) :
    Extends (d.passes guards) (d.passes (guards.under limit)) := by
  refine Extends.bind (interfacesOf_extends h) fun interfaces _ => ?_
  exact Extends.bind (componentTypes_extends h) fun components _ => .refl _

theorem service_extends {options : Options} (h : options.limit ≤ limit) :
    Extends (d.service options) (d.service { options with limit }) := by
  have passes : Extends (d.passes (.none options.limit)) (d.passes (.none limit)) :=
    passes_extends h
  exact Extends.bind passes.listen fun found _ => .refl _

end Description

end OpenApi

open OpenApi

theorem convertTree_extends {options : Options} {limit : Int} (h : options.limit ≤ limit)
    (root : Node) :
    Extends (convertTree options root) (convertTree { options with limit } root) := by
  unfold convertTree
  refine Extends.lift_bind fun d _ => ?_
  exact Description.service_extends h

theorem convert_extends {options : Options} {limit : Int} (h : options.limit ≤ limit)
    (text : String) : Extends (convert options text) (convert { options with limit } text) := by
  unfold convert
  exact Extends.lift_bind fun root _ => convertTree_extends h root

/-- What ends in anything but the failure that the limit is exceeded ends in the same way under
every larger limit: with the same service or the same failure, and with the same records, the
unsupported features among them. -/
theorem convert_limit_mono {options : Options} {limit : Int} {text : String}
    (h : options.limit ≤ limit) (hd : ¬ (convert options text).TooDeep) :
    convert { options with limit } text = convert options text := by
  rcases convert_extends h text with deep | same
  · exact absurd deep hd
  · exact same

theorem convert_sample_limit :
    Sample.options.limit ≤ 64 ∧ ¬ (convert Sample.options Sample.text).TooDeep ∧
      convert { Sample.options with limit := 64 } Sample.text =
        convert Sample.options Sample.text := by
  have limit : Sample.options.limit ≤ 64 := by decide
  have done : ¬ (convert Sample.options Sample.text).TooDeep := by
    rintro ⟨limit, key, deep⟩
    obtain ⟨service, ok⟩ := Sample.converts
    rw [ok] at deep
    cases deep
  exact ⟨limit, done, convert_limit_mono limit done⟩

end ServiceModel
