/-
Interfaces depend on the document around them by what is reached in it. Two descriptions in which
the same is reached among some nodes that are not left, and which declare the same security
schemes, requirements and tags, bind an operation among these nodes in the same way, with the same
records.
-/
import ServiceModel.Proofs.Interfaces.Settled
import ServiceModel.Proofs.Synthesis.Reach

namespace ServiceModel.OpenApi

open Service

/-- The second description offers to the operations of the first one what the first one does: among
some nodes that are not left the same is reached, and the same is declared. -/
structure Description.Offers (d d' : Description) (P : Node → Prop) : Prop where
  reach : d.root.SameReach d'.root P
  schemes : ∀ key, d.schemeUnder key = d'.schemeUnder key
  security : d.security = d'.security
  tags : d.tags = d'.tags

section

variable {d d' : Description} {P : Node → Prop} {guards : Guards} {operation : Operation}

/-! ## What stands in an operation -/

theorem within_body {source : OrReference RequestBody}
    (hs : operation.requestBody = .ok (some source)) :
    (View.node source).Within (View.node operation) :=
  (View.child_below (View.reads_orReference View.reads_requestBody) hs).within

theorem within_response {primary : PrimaryResponse}
    (hp : operation.primaryResponse = .ok (some primary)) {source : OrReference Response}
    (hs : primary.source = .ok (some source)) :
    (View.node source).Within (View.node operation) := by
  have below := View.child_below (View.reads_orReference View.reads_response) hs
  exact below.within.trans (within_primary (.refl _) hp)

/-- The schema of a content stands in what the content is one of. -/
theorem within_contentSchema {o : Object} {content : Option Object} {schema : SchemaOrReference}
    (hc : o.index "content" = .ok content)
    (h : (contentSchema content).outcome = .ok (some schema)) :
    (View.node schema).Within o.node := by
  have inside : ∀ c, content = some c → c.node.Within o.node := by
    rintro c rfl
    exact (View.index_below hc).within
  refine SchemaOrReference.Of.within (of_firstSchema inside ?_)
  unfold contentSchema at h
  cases content with
  | none => cases h
  | some o =>
    dsimp only at h
    split at h
    · obtain ⟨_, -, h, -⟩ := Build.bind_ok h
      exact h
    · exact h

/-! ## Parts of an operation -/

variable (same : d.Offers d' P)

include same

theorem offers_bodyParameter (ho : P (View.node operation)) (method : String)
    (metadata : Option (List MetaValue)) :
    bodyParameter d guards operation method metadata =
      bodyParameter d' guards operation method metadata := by
  have closed := same.reach.closed
  unfold bodyParameter
  refine Build.lift_bind_congr fun found hf => ?_
  cases found with
  | none => rfl
  | some source =>
    have inside := closed.below ho (within_body hf)
    dsimp only
    rw [← same.reach.resolve inside]
    refine Build.lift_bind_congr fun body hb => ?_
    refine Build.lift_bind_congr fun content hc => ?_
    have hw := closed.view View.reads_requestBody inside hb
    refine Build.bind_congr fun schema hs => ?_
    cases schema with
    | none => rfl
    | some schema =>
      have among := closed.below hw (within_contentSchema hc hs)
      dsimp only
      rw [← same.reach.resolveSchema among, ← same.reach.describe among]
      refine Build.lift_bind_congr fun resolved hr => ?_
      rw [← same.reach.rulesWhen (closed.schema among hr)]

theorem offers_parameterOf {source : OrReference Parameter} (hs : P (View.node source))
    (method : String) : parameterOf d guards method source = parameterOf d' guards method source := by
  have closed := same.reach.closed
  unfold parameterOf
  rw [← same.reach.resolve hs]
  refine Build.lift_bind_congr fun p hp => ?_
  refine Build.lift_bind_congr fun place _ => ?_
  split
  · rfl
  · refine Build.lift_bind_congr fun schema hf => ?_
    cases schema with
    | none => rfl
    | some schema =>
      have among := closed.below (closed.view View.reads_parameter hs hp)
        (of_schema (.refl _) hf).within
      have resolve := same.reach.resolveSchema among
      have ours : methodParameter d guards p schema method =
          methodParameter d' guards p schema method := by
        unfold methodParameter
        rw [← resolve]
        refine Build.lift_bind_congr fun resolved hr => ?_
        refine Build.lift_bind_congr fun name _ => ?_
        rw [← same.reach.describe among, ← same.reach.rulesWhen (closed.schema among hr)]
      have request : requestParameter d p schema = requestParameter d' p schema := by
        unfold requestParameter arrayFormAt
        rw [← resolve]
      dsimp only
      rw [ours, request]

theorem offers_returnTypeOf (ho : P (View.node operation)) (method : String) :
    returnTypeOf d guards operation method = returnTypeOf d' guards operation method := by
  have closed := same.reach.closed
  unfold returnTypeOf
  refine Build.lift_bind_congr fun found hf => ?_
  cases found with
  | none => rfl
  | some primary =>
    refine Build.lift_bind_congr fun found hs => ?_
    cases found with
    | none => rfl
    | some source =>
      have inside := closed.below ho (within_response hf hs)
      dsimp only
      rw [← same.reach.resolve inside]
      refine Build.lift_bind_congr fun response hr => ?_
      refine Build.lift_bind_congr fun content hc => ?_
      have hw := closed.view View.reads_response inside hr
      refine Build.bind_congr fun schema hs => ?_
      cases schema with
      | none => rfl
      | some schema =>
        have among := closed.below hw (within_contentSchema hc hs)
        refine Build.lift_bind_congr fun component _ => ?_
        rw [← same.reach.describe among]

theorem offers_successCodeOf (ho : P (View.node operation)) (verb : String) :
    successCodeOf d verb operation = successCodeOf d' verb operation := by
  unfold successCodeOf
  refine read_bind_congr fun found hf => ?_
  cases found with
  | none => rfl
  | some primary =>
    dsimp only
    cases primary.code with
    | some code => rfl
    | none =>
      refine read_bind_congr fun found hs => ?_
      cases found with
      | none => rfl
      | some source =>
        dsimp only
        rw [← same.reach.resolve (same.reach.closed.below ho (within_response hf hs))]

theorem offers_securityOptions : d.securityOptions operation = d'.securityOptions operation := by
  have option : d.optionOf = d'.optionOf := by
    funext requirement
    unfold Description.optionOf
    rw [funext same.schemes]
  unfold Description.securityOptions
  rw [option, same.security]

/-! ## Operations and interfaces -/

theorem offers_bind {item : PathItem} (hi : P (View.node item)) (ho : P (View.node operation))
    (path verb : String) :
    bind d guards item path verb operation = bind d' guards item path verb operation := by
  unfold bind
  refine Build.lift_bind_congr fun sourceName _ => ?_
  dsimp only
  rw [offers_bodyParameter same ho, offers_securityOptions same, offers_returnTypeOf same ho,
    offers_successCodeOf same ho]
  refine Build.bind_congr fun body _ => ?_
  refine Build.lift_bind_congr fun shared hs => ?_
  refine Build.lift_bind_congr fun own hown => ?_
  congr 1
  refine Build.mapM_congr fun source hm => offers_parameterOf same ?_ _
  rcases List.mem_append.1 hm with hm | hm
  · exact same.reach.closed.below hi (within_parameters (.refl _) hs hm)
  · exact same.reach.closed.below ho (within_parameters (.refl _) hown hm)

/-- An operation of an item stands where the item does. -/
theorem among_operations {item : PathItem} {operations : List (String × Operation)}
    (hi : P (View.node item)) (h : item.operations = .ok operations) {found : String × Operation}
    (hm : found ∈ operations) : P (View.node found.2) := by
  obtain ⟨verb, -, -, hr⟩ := forall₂_mem_right (operations_forall₂ h) hm
  exact same.reach.closed.below hi (View.child_below View.reads_operation hr).within

theorem offers_bindPath {paths : Object} (hp : P paths.node) (path : String) :
    bindPath d guards paths path = bindPath d' guards paths path := by
  have closed := same.reach.closed
  unfold bindPath
  refine Build.lift_bind_congr fun found hf => ?_
  cases found with
  | none => rfl
  | some source =>
    have inside := closed.below hp
      (View.child_below (View.reads_orReference View.reads_pathItem) hf).within
    dsimp only
    rw [← same.reach.resolve inside]
    refine Build.lift_bind_congr fun item hi => ?_
    have hw := closed.view View.reads_pathItem inside hi
    refine Build.lift_bind_congr fun operations ho => ?_
    exact Build.mapM_congr fun found hm =>
      offers_bind same hw (among_operations same hw ho hm) path found.1

theorem offers_bindAll {paths : Object} (hp : P paths.node) :
    bindAll d guards paths = bindAll d' guards paths := by
  unfold bindAll
  rw [Build.mapM_congr fun path _ => offers_bindPath same hp path]

theorem offers_groupInterfaces (paths : Object) (operations : List BoundOperation) :
    groupInterfaces d paths operations = groupInterfaces d' paths operations := by
  have one : interfaceOf d paths = interfaceOf d' paths := by
    funext name operations
    unfold interfaceOf tagDescription
    rw [same.tags]
  unfold groupInterfaces
  rw [one]

/-- Descriptions with the same paths, of which the second offers what the first one does, have the
same interfaces and record the same on the way to them. -/
theorem offers_interfacesOf (paths : d.paths = d'.paths)
    (among : ∀ paths, d.paths = .ok (some paths) → P paths.node) :
    interfacesOf d guards = interfacesOf d' guards := by
  unfold interfacesOf
  rw [← paths]
  refine Build.lift_bind_congr fun found hf => ?_
  cases found with
  | none => rfl
  | some paths =>
    dsimp only
    rw [offers_bindAll same (among paths hf)]
    simp only [offers_groupInterfaces same]

end

end ServiceModel.OpenApi
