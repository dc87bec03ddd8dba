/-
What is ensured of all schemas that are described is ensured of the interfaces. The schemas that
operations hold, in parameters, bodies and responses, all stand in the document, and nothing is
defined but by the synthesis. Every use of a type in an interface is settled therefore. What is
ensured may depend on the names of the places where the schemas are described.
-/
import ServiceModel.Proofs.Interfaces.Grouping
import ServiceModel.Proofs.Interfaces.Sites
import ServiceModel.Proofs.Synthesis.Settled

namespace ServiceModel

open Service

/-! ## The schemas of a description -/

namespace OpenApi

variable {root : Node}

theorem of_firstSchema {content : Option Object} {s : SchemaOrReference}
    (hc : ∀ o, content = some o → o.node.Within root) (h : firstSchema content = .ok (some s)) :
    SchemaOrReference.Of root s := by
  unfold firstSchema at h
  split at h
  · cases h
  · rename_i o
    split at h
    · cases h
    · obtain ⟨found, hm, h⟩ := read_bind_ok h
      cases found with
      | none => cases h
      | some mediaType =>
        have below := View.child_below View.reads_mediaType hm
        exact SchemaOrReference.of_child (below.within.trans (hc o rfl)) h

theorem of_schema {p : Parameter} {s : SchemaOrReference} (hp : (View.node p).Within root)
    (h : p.schema = .ok (some s)) : SchemaOrReference.Of root s := by
  obtain ⟨found, hf, h⟩ := read_bind_ok h
  cases found with
  | some s' => cases h; exact SchemaOrReference.of_child hp hf
  | none =>
    obtain ⟨content, hc, h⟩ := read_bind_ok h
    refine of_firstSchema (fun o ho => ?_) h
    subst ho
    exact (View.index_below hc).within.trans hp

theorem within_parameters {o : Object} {sources : List (OrReference Parameter)}
    (ho : o.node.Within root)
    (h : (do return (← o.array "parameters" (OrReference.ofNode Parameter.ofNode)).getD []) =
      (.ok sources : Except Failure _)) {source : OrReference Parameter}
    (hs : source ∈ sources) : (View.node source).Within root := by
  obtain ⟨found, ha, h⟩ := read_bind_ok h
  cases h
  cases found with
  | none => cases hs
  | some listed =>
    have reads := View.reads_orReference View.reads_parameter
    exact (View.array_below reads ha hs).within.trans ho

theorem within_primary {o : Operation} {primary : PrimaryResponse}
    (ho : (View.node o).Within root) (h : o.primaryResponse = .ok (some primary)) :
    primary.responses.node.Within root := by
  obtain ⟨found, hr, h⟩ := read_bind_ok h
  cases found with
  | none => cases h
  | some responses =>
    have hw := (View.index_below hr).within.trans ho
    have byDefault : ∀ p : PrimaryResponse,
        (if responses.distinctKeys.contains defaultResponseKey then
          some (⟨responses, defaultResponseKey, none⟩ : PrimaryResponse) else none) = some p →
        p.responses = responses := by
      intro p hp
      split at hp
      · cases hp; rfl
      · cases hp
    have same : primary.responses = responses := by
      dsimp only at h
      split at h
      · exact byDefault _ (Except.ok.inj h)
      · split at h
        · exact byDefault _ (Except.ok.inj h)
        · cases Except.ok.inj h; rfl
    rw [same]
    exact hw

/-! ## Parameters and responses -/

/-- What is ensured of the schemas of a document that are described in certain places, and of their
properties: a property of the uses of types, whatever the rules are, and one of the records. Records
that define nothing have it. -/
structure Described (root : Node) (N : String → String → Prop) (M : ObjectSchema → String → Prop)
    (A P : Entry → Prop) (U : TypeUse → Prop) : Prop where
  describe : ∀ {guards : Guards} {schema : SchemaOrReference} {name parent : String},
    SchemaOrReference.Of root schema → N name parent →
    Build.Ensures A P (fun type : Descriptor => U type.type)
      (ServiceModel.describe root guards schema name parent)
  properties : ∀ {guards : Guards} {s : ObjectSchema} {parent : String},
    s.object.node.Within root → M s parent →
    Build.Ensures A P (fun members : List Member => ∀ m ∈ members, U m.type)
      (propertiesOf root guards s parent [])
  rules : ∀ {type : TypeUse} {rules : List Rule},
    U type → U ⟨type.typeName, type.isPrimitive, type.isArray, rules⟩
  others : ∀ {e : Entry}, e.name? = none → P e

variable {N : String → String → Prop} {M : ObjectSchema → String → Prop} {A P : Entry → Prop}
  {U : TypeUse → Prop}

theorem described_of_constructs (constructs : Constructs root N M A P U)
    (others : ∀ {e : Entry}, e.name? = none → P e) : Described root N M A P U where
  describe of place := constructs.ensures (.describe _ _ _ _) of place
  properties within place := constructs.ensures (.properties _ _ _ []) within place
  rules used := constructs.renewed used
  others := others

theorem ensures_contentSchema (described : Described root N M A P U) {content : Option Object}
    (hc : ∀ o, content = some o → o.node.Within root) :
    Build.Ensures A P (fun found => ∀ s, found = some s → SchemaOrReference.Of root s)
      (contentSchema content) := by
  unfold contentSchema
  cases content with
  | none => exact .pure fun _ h => nomatch h
  | some o =>
    have first : Build.Ensures A P (fun found => ∀ s, found = some s → SchemaOrReference.Of root s)
        (liftM (firstSchema (some o))) :=
      .lift fun found hf s hs => of_firstSchema hc (hs ▸ hf)
    dsimp only
    split
    · exact .bind (.record fun _ => described.others rfl) fun _ _ _ => first
    · exact first

section

variable {d : Description} {guards : Guards} (described : Described d.root N M A P U)

include described

theorem ensures_bodyParameter {operation : Operation} (ho : (View.node operation).Within d.root)
    {method : String} {metadata : Option (List MetaValue)}
    (place : ∀ source, operation.requestBody = .ok (some source) →
      N ((bodyName? metadata).getD ⟨defaultBodyName, none⟩).value method) :
    Build.Ensures A P (fun body => ∀ p, body = some p → U p.type)
      (bodyParameter d guards operation method metadata) := by
  unfold bodyParameter
  refine .lift_bind fun found hf => ?_
  cases found with
  | none => exact .pure fun _ h => nomatch h
  | some source =>
    refine .lift_bind fun body hb => ?_
    refine .lift_bind fun content hc => ?_
    have hw : (View.node body).Within d.root := by
      have below := View.child_below (View.reads_orReference View.reads_requestBody) hf
      exact View.resolve_within View.reads_requestBody (below.within.trans ho) hb
    have within : ∀ o, content = some o → o.node.Within d.root := by
      rintro o rfl
      exact (View.index_below hc).within.trans hw
    refine .bind (ensures_contentSchema described within) fun schema _ hs => ?_
    cases schema with
    | none => exact .pure fun _ h => nomatch h
    | some schema =>
      refine .lift_bind fun resolved _ => ?_
      refine .bind (described.describe (hs _ rfl) (place _ hf)) fun type _ ht => ?_
      refine .lift_bind fun rules _ => ?_
      refine .pure ?_
      rintro p ⟨⟩
      exact described.rules ht

theorem ensures_methodParameter {p : Parameter}
    {schema : SchemaOrReference} (hs : SchemaOrReference.Of d.root schema) {method : String}
    (place : ∀ name, p.name = .ok name → N name.text method) :
    Build.Ensures A P (fun m => U m.type)
      (methodParameter d guards p schema method) := by
  unfold methodParameter
  refine .lift_bind fun resolved _ => ?_
  refine .lift_bind fun name hn => ?_
  refine .bind (described.describe hs (place name hn)) fun type _ ht => ?_
  refine .lift_bind fun rules _ => ?_
  exact .pure (described.rules ht)

/-- What is read for a request makes no use of a type, and records none. -/
theorem ensures_requestParameter {p : Parameter} {schema : SchemaOrReference} :
    Build.Ensures A P (fun _ => True) (requestParameter d p schema) := by
  have form : Build.Ensures A P (fun _ => True) (arrayForm p) := by
    unfold arrayForm
    split
    · exact .pure trivial
    · split
      · exact .bind (.record fun _ => described.others rfl) fun _ _ _ => .pure trivial
      · split <;> exact .pure trivial
  have formAt : ∀ place, Build.Ensures A P (fun _ => True) (arrayFormAt d p place schema) := by
    intro place
    unfold arrayFormAt
    split
    · refine .lift_bind fun resolved _ => ?_
      cases resolved with
      | array s => exact .bind form fun _ _ _ => .pure trivial
      | _ => exact .pure trivial
    · exact .pure trivial
  unfold requestParameter
  refine .lift_bind fun place _ => ?_
  refine .bind (formAt _) fun _ _ _ => ?_
  exact .lift_bind fun name _ => .pure trivial

theorem ensures_parameterOf {source : OrReference Parameter}
    (hs : (View.node source).Within d.root) {method : String}
    (named : ∀ p name, source.resolve d.root Parameter.ofNode = .ok p → p.name = .ok name →
      N name.text method) :
    Build.Ensures A P (fun found => ∀ p, found = some p → U p.1.type)
      (parameterOf d guards method source) := by
  unfold parameterOf
  refine .lift_bind fun p hp => ?_
  refine .lift_bind fun place _ => ?_
  split
  · exact .bind (.record fun _ => described.others rfl) fun _ _ _ => .pure fun _ h => nomatch h
  · refine .lift_bind fun schema hf => ?_
    cases schema with
    | none => exact .lift_bind fun name _ => .fail
    | some schema =>
      have hw := View.resolve_within View.reads_parameter hs hp
      refine .bind (ensures_methodParameter described (of_schema hw hf) fun name => named p name hp)
        fun ours _ ho => ?_
      refine .bind (ensures_requestParameter described) fun request _ _ => ?_
      refine .pure ?_
      rintro p ⟨⟩
      exact ho

theorem ensures_returnTypeOf {operation : Operation} (ho : (View.node operation).Within d.root)
    {method : String} (place : ∀ component : Option String, N "response" (component.getD method)) :
    Build.Ensures A P (fun found => ∀ r, found = some r → U r.type)
      (returnTypeOf d guards operation method) := by
  unfold returnTypeOf
  refine .lift_bind fun found hf => ?_
  cases found with
  | none => exact .pure fun _ h => nomatch h
  | some primary =>
    refine .lift_bind fun found hs => ?_
    cases found with
    | none => exact .pure fun _ h => nomatch h
    | some source =>
      refine .lift_bind fun response hr => ?_
      refine .lift_bind fun content hc => ?_
      have hw : (View.node response).Within d.root := by
        have below := View.child_below (View.reads_orReference View.reads_response) hs
        exact View.resolve_within View.reads_response
          (below.within.trans (within_primary ho hf)) hr
      have within : ∀ o, content = some o → o.node.Within d.root := by
        rintro o rfl
        exact (View.index_below hc).within.trans hw
      refine .bind (ensures_contentSchema described within) fun schema _ hs => ?_
      cases schema with
      | none => exact .pure fun _ h => nomatch h
      | some schema =>
        refine .lift_bind fun component _ => ?_
        refine .bind (described.describe (hs _ rfl) (place component)) fun type _ ht => ?_
        refine .pure ?_
        rintro r ⟨⟩
        exact ht

/-! ## Operations and interfaces -/

/-- All uses of types in a method have a property. -/
def UsesOf (U : TypeUse → Prop) (m : Method) : Prop :=
  (∀ p ∈ m.parameters, U p.type) ∧ ∀ r, m.returnType = some r → U r.type

/-- The names of the places in which the schemas of an operation are described: a body and the
declared parameters, which are named inside the operation, and a response, which may be named
inside a component. -/
structure PlacesOf (d : Description) (N : String → String → Prop) (item : PathItem)
    (operation : Operation) : Prop where
  body : ∀ source, operation.requestBody = .ok (some source) →
    N ((bodyName? operation.object.metadata).getD ⟨defaultBodyName, none⟩).value operation.name
  parameter : ∀ sources, (do return (← item.parameters) ++ (← operation.parameters)) =
      (.ok sources : Except Failure _) → ∀ source ∈ sources, ∀ p name,
    source.resolve d.root Parameter.ofNode = .ok p → p.name = .ok name →
      N name.text operation.name
  response : ∀ component : Option String, N "response" (component.getD operation.name)

theorem ensures_bind {item : PathItem}
    {path verb : String} {operation : Operation} (hi : (View.node item).Within d.root)
    (ho : (View.node operation).Within d.root) (places : PlacesOf d N item operation) :
    Build.Ensures A P (fun op => UsesOf U op.method)
      (bind d guards item path verb operation) := by
  unfold bind
  refine .lift_bind fun sourceName _ => ?_
  refine .bind (ensures_bodyParameter described ho places.body) fun body _ hb => ?_
  refine .lift_bind fun shared hs => ?_
  refine .lift_bind fun own hown => ?_
  refine .bind (Q := fun found => ∀ f ∈ found, ∀ p, f = some p → U p.1.type)
    (.mapM fun source hm => ensures_parameterOf described ?_ fun p name =>
      places.parameter _ (by rw [hs, hown]; rfl) source hm p name) fun parameters _ hp => ?_
  · rcases List.mem_append.1 hm with hm | hm
    · exact within_parameters hi hs hm
    · exact within_parameters ho hown hm
  refine .lift_bind fun security _ => ?_
  refine .bind (ensures_returnTypeOf described ho places.response) fun returnType _ hr => ?_
  refine .lift_bind fun code _ => ?_
  refine .pure ⟨fun p hm => ?_, hr⟩
  rcases List.mem_append.1 hm with hm | hm
  · exact hb p (Option.mem_toList.1 hm)
  · obtain ⟨both, hboth, rfl⟩ := List.mem_map.1 hm
    obtain ⟨f, hfound, hf⟩ := List.mem_filterMap.1 hboth
    exact hp f hfound both hf

theorem ensures_bindPath {paths : Object}
    {path : String} (hp : paths.node.Within d.root)
    (places : ∀ source item operations verb operation,
      paths.readEntry path (OrReference.ofNode PathItem.ofNode) = .ok (some source) →
      source.resolve d.root PathItem.ofNode = .ok item → item.operations = .ok operations →
      (verb, operation) ∈ operations → PlacesOf d N item operation) :
    Build.Ensures A P
      (fun ops => ∀ op ∈ ops, UsesOf U op.method)
      (bindPath d guards paths path) := by
  unfold bindPath
  refine .lift_bind fun found hf => ?_
  cases found with
  | none => exact .pure fun _ h => nomatch h
  | some source =>
    refine .lift_bind fun item hi => ?_
    refine .lift_bind fun operations ho => ?_
    have hw : (View.node item).Within d.root := by
      have below := View.child_below (View.reads_orReference View.reads_pathItem) hf
      exact View.resolve_within View.reads_pathItem (below.within.trans hp) hi
    refine .mapM fun found hm => ensures_bind described hw ?_ (places _ _ _ _ _ hf hi ho hm)
    obtain ⟨verb, -, -, hr⟩ := forall₂_mem_right (operations_forall₂ ho) hm
    exact (View.child_below View.reads_operation hr).within.trans hw

theorem ensures_interfacesOf
    (places : ∀ item operation, HoldsOperation d item operation → PlacesOf d N item operation) :
    Build.Ensures A P
      (fun interfaces => ∀ i ∈ interfaces, ∀ m ∈ i.methods, UsesOf U m)
      (interfacesOf d guards) := by
  unfold interfacesOf
  refine .lift_bind fun found hf => ?_
  cases found with
  | none =>
    refine .bind (Q := fun interfaces => interfaces = []) (.pure rfl) fun interfaces _ hi => ?_
    subst hi
    exact .bind (.record fun _ => described.others rfl) fun _ _ _ => .pure fun _ h => nomatch h
  | some paths =>
    have hw : paths.node.Within d.root := (View.index_below hf).within
    refine .bind (Q := fun ops => ∀ op ∈ ops, UsesOf U op.method) ?_
      fun operations _ ho => ?_
    · refine .bind (.mapM fun path hk => ensures_bindPath described hw
        fun source item operations verb operation hr hi ho hm =>
          places _ _ ⟨paths, path, source, operations, verb, hf, hk, hr, hi, ho, hm⟩)
        fun groups _ hg => ?_
      refine .pure fun op hm => ?_
      obtain ⟨group, hgm, hm⟩ := List.mem_flatten.1 hm
      exact hg group hgm op hm
    · refine .lift_bind fun interfaces hi => ?_
      refine .bind (.record fun _ => described.others rfl) fun _ _ _ => .pure fun i him m hm => ?_
      obtain ⟨name, -, hg⟩ := forall₂_mem_right (groupInterfaces_forall₂ hi) him
      rw [hg.methods] at hm
      obtain ⟨op, hop, rfl⟩ := List.mem_map.1 hm
      exact ho op (List.mem_of_mem_filter hop)

end

/-- Where nothing is asked of the names of places, all of them satisfy it. -/
theorem placesOf_anywhere {d : Description} (item : PathItem) (operation : Operation) :
    PlacesOf d (fun _ _ => True) item operation :=
  ⟨fun _ _ => trivial, fun _ _ _ _ _ _ _ _ => trivial, fun _ => trivial⟩

/-! ## Settled uses -/

variable {d : Description} {guards : Guards} {defined : String → Prop}

theorem described_settled (components : DefinesComponents d.root defined) :
    Described d.root (fun _ _ => True) (fun _ _ => True) (Entry.Defined defined)
      (Entry.Settled d.root defined) (Settled d.root defined) :=
  described_of_constructs (constructs_settled components) fun {e} he => by
    cases e with
    | type _ => cases he
    | union _ => cases he
    | _ => trivial

end OpenApi

end ServiceModel
