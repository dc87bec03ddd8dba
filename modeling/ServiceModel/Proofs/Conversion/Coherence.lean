/-
Descriptors agree with schemas, throughout a service. Every parameter, body, returned type,
property and member of a union has the type of a descriptor that is synthesized for one schema of
the document, with the rules of the descriptor. The rules are read a second time for properties
and parameters, and taken from the descriptor for the others; it makes no difference but for the
rule that the value has to be present.
-/
import ServiceModel.Proofs.Conversion.Folding
import ServiceModel.Proofs.Interfaces.Methods
import ServiceModel.Proofs.Synthesis.Coherence

namespace ServiceModel

open Service

namespace OpenApi

variable {d : Description} {guards : Guards}

/-! ## Parameters -/

theorem contentSchema_ok {content : Option Object} {found : Option SchemaOrReference}
    (h : (contentSchema content).outcome = .ok found) : firstSchema content = .ok found := by
  unfold contentSchema at h
  cases content with
  | none =>
    cases Build.pure_ok h
    rfl
  | some o =>
    dsimp only at h
    split at h
    · obtain ⟨_, -, h, -⟩ := Build.bind_ok h
      exact h
    · exact h

/-- The type of a declared parameter is drawn from its schema, under its name inside the method. -/
def Parameter.Draws (root : Node) (method : String) (p : Parameter) (m : Service.Member) : Prop :=
  ∃ name schema, p.name = .ok name ∧ p.schema = .ok (some schema) ∧ m.name = name.locatedText ∧
    m.type.DrawnFrom root schema name.text method (Literal.isSet p.required?)

/-- The schema of a body is that of the first media type of what the operation holds or refers
to. -/
def Operation.HasBody (d : Description) (o : Operation) (body : RequestBody)
    (schema : SchemaOrReference) : Prop :=
  ∃ source content, o.requestBody = .ok (some source) ∧
    source.resolve d.root RequestBody.ofNode = .ok body ∧ body.content = .ok content ∧
    firstSchema content = .ok (some schema)

/-- The schema of the response that says what success is, and the name of the component that the
response is, or else that of the method. -/
def Operation.Returns (d : Description) (o : Operation) (parent : String)
    (schema : SchemaOrReference) : Prop :=
  ∃ primary source response content component,
    o.primaryResponse = .ok (some primary) ∧ primary.source = .ok (some source) ∧
    source.resolve d.root Response.ofNode = .ok response ∧ response.content = .ok content ∧
    firstSchema content = .ok (some schema) ∧ componentName? source = .ok component ∧
    parent = component.getD o.name

theorem bodyParameter_draws {o : Operation} {method : String} {metadata : Option (List MetaValue)}
    {m : Service.Member}
    (h : (bodyParameter d guards o method metadata).outcome = .ok (some m)) :
    ∃ body schema, o.HasBody d body schema ∧
      m.type.DrawnFrom d.root schema m.name.value method (Literal.isSet body.required?) := by
  obtain ⟨found, hf, h⟩ := Build.lift_bind_ok h
  cases found with
  | none => cases Build.pure_ok h
  | some source =>
    obtain ⟨body, hb, h⟩ := Build.lift_bind_ok h
    obtain ⟨content, hc, h⟩ := Build.lift_bind_ok h
    obtain ⟨found, hs, h, -⟩ := Build.bind_ok h
    cases found with
    | none => cases Build.pure_ok h
    | some schema =>
      obtain ⟨target, ht, h⟩ := Build.lift_bind_ok h
      obtain ⟨type, hd, h, -⟩ := Build.bind_ok h
      obtain ⟨rules, hr, h⟩ := Build.lift_bind_ok h
      cases Build.pure_ok h
      exact ⟨body, schema, ⟨source, content, hf, hb, hc, contentSchema_ok hs⟩,
        drawnFrom_read ht hd hr⟩

theorem methodParameter_draws {p : Parameter} {schema : SchemaOrReference} {method : String}
    {m : Service.Member} (hs : p.schema = .ok (some schema))
    (h : (methodParameter d guards p schema method).outcome = .ok m) :
    p.Draws d.root method m := by
  obtain ⟨target, ht, h⟩ := Build.lift_bind_ok h
  obtain ⟨name, hn, h⟩ := Build.lift_bind_ok h
  obtain ⟨type, hd, h, -⟩ := Build.bind_ok h
  obtain ⟨rules, hr, h⟩ := Build.lift_bind_ok h
  cases Build.pure_ok h
  exact ⟨name, schema, hn, hs, rfl, drawnFrom_read ht hd hr⟩

theorem returnTypeOf_draws {o : Operation} {r : ReturnType}
    (h : (returnTypeOf d guards o o.name).outcome = .ok (some r)) :
    ∃ parent schema, o.Returns d parent schema ∧
      r.type.DrawnFrom d.root schema "response" parent false := by
  obtain ⟨found, hp, h⟩ := Build.lift_bind_ok h
  cases found with
  | none => cases Build.pure_ok h
  | some primary =>
    obtain ⟨found, hs, h⟩ := Build.lift_bind_ok h
    cases found with
    | none => cases Build.pure_ok h
    | some source =>
      obtain ⟨response, hr, h⟩ := Build.lift_bind_ok h
      obtain ⟨content, hc, h⟩ := Build.lift_bind_ok h
      obtain ⟨found, hf, h, -⟩ := Build.bind_ok h
      cases found with
      | none => cases Build.pure_ok h
      | some schema =>
        obtain ⟨component, hn, h⟩ := Build.lift_bind_ok h
        obtain ⟨type, hd, h, -⟩ := Build.bind_ok h
        cases Build.pure_ok h
        exact ⟨_, schema,
          ⟨primary, source, response, content, component, hp, hs, hr, hc, contentSchema_ok hf, hn,
            rfl⟩, drawnFrom_described hd⟩

/-! ## Methods -/

/-- The types that a method uses are drawn from the schemas of its operation: that of the body,
those of the declared parameters without the cookies, and that of the response. -/
structure Site.Draws (d : Description) (s : Site) (m : Method) : Prop where
  parameters : ∃ body sources declared rest,
    m.parameters = Option.toList body ++ rest ∧
    (∀ p, body = some p → ∃ object schema, s.operation.HasBody d object schema ∧
      p.type.DrawnFrom d.root schema p.name.value s.operation.name
        (Literal.isSet object.required?)) ∧
    (do return (← s.item.parameters) ++ (← s.operation.parameters)) =
      (.ok sources : Except Failure _) ∧
    List.Forall₂ (fun source p => source.resolve d.root Parameter.ofNode = .ok p) sources
      declared ∧
    List.Forall₂ (Parameter.Draws d.root s.operation.name) (declared.filter (!·.isCookie)) rest
  returned : ∀ r, m.returnType = some r → ∃ parent schema, s.operation.Returns d parent schema ∧
    r.type.DrawnFrom d.root schema "response" parent false

/-- A declared parameter is left out if it is a cookie, and else its type is drawn. -/
theorem parameterOf_draws {method : String} {source : OrReference Parameter}
    {found : Option (Service.Member × HttpParameter)}
    (h : (parameterOf d guards method source).outcome = .ok found) :
    ∃ p, source.resolve d.root Parameter.ofNode = .ok p ∧
      (p.isCookie = true ∧ found = none ∨
        p.isCookie = false ∧ ∃ both, found = some both ∧ p.Draws d.root method both.1) := by
  obtain ⟨p, hp, cookie | ⟨plain, schema, m, r, rfl, hs, hm, -⟩⟩ := parameterOf_cases h
  · exact ⟨p, hp, .inl cookie⟩
  · exact ⟨p, hp, .inr ⟨plain, (m, r), rfl, methodParameter_draws hs hm⟩⟩

theorem draws_of_binds (s : Site) (op : BoundOperation) (h : Binds d guards s op) :
    s.Draws d op.method := by
  obtain ⟨parts, has, rfl⟩ := binds_ok h
  obtain ⟨declared, resolved, draws⟩ :=
    parameters_forall₂ parameterOf_draws (Build.mapM_forall₂ has.declared)
  constructor
  case parameters =>
    refine ⟨parts.body, parts.sources, declared, _, rfl, fun p hp => ?_, has.sources, resolved,
      List.forall₂_map_right_iff.2 draws⟩
    exact bodyParameter_draws (has.body.trans (congrArg _ hp))
  case returned =>
    exact fun r hr => returnTypeOf_draws (has.returnType.trans (congrArg _ hr))

end OpenApi

/-! ## Services -/

open OpenApi

/-- Every use of a type in a service is drawn from a schema. -/
structure Coherent (d : Description) (service : Service) : Prop where
  methods : MethodsShow d (Site.Draws d) service.interfaces
  types : ∀ t ∈ service.types, t.Drawn d.root
  unions : ∀ u ∈ service.unions, u.Drawn d.root

theorem OpenApi.Description.Yields.coherent {d : Description} {options : Options}
    {service : Service} (h : d.Yields options service) : Coherent d service := by
  obtain ⟨components, hp, types⟩ := h.passes
  have collected := Description.collected_passes hp
  constructor
  case methods => exact interfacesOf_methods draws_of_binds (Description.passes_ok hp).1
  case types =>
    intro t ht
    rw [types] at ht
    rcases List.mem_append.1 (mem_foldByName ht) with hm | hm
    · obtain ⟨s, made, -⟩ := collected.component t hm
      exact made.drawn
    · obtain ⟨s, made, -⟩ := collected.inPlace t hm
      exact made.drawn
  case unions =>
    intro u hu
    rw [h.unions] at hu
    obtain ⟨s, name, parent, made⟩ := collected.union u (mem_foldByName hu)
    exact made.drawn

/-- Wherever a schema or a reference is described, under whatever names, the descriptor agrees with
the schema that it leads to; and wherever a document becomes a service, all types are used as the
descriptors of its schemas have them, with their rules. -/
theorem synthesis_coherent (root : Node) :
    (∀ guards schema name parent descriptor,
      (describe root guards schema name parent).outcome = .ok descriptor →
        ∃ target, schema.resolve root = .ok target ∧ descriptor.Coheres root target) ∧
    ∀ options service, (convertTree options root).outcome = .ok service →
      ∃ d, Description.ofNode root = .ok d ∧ d.root = root ∧ Coherent d service := by
  refine ⟨fun _ _ _ _ _ h => describe_coheres h, fun options service h => ?_⟩
  obtain ⟨d, hd, h⟩ := Build.lift_bind_ok h
  have read := descriptionOfTree_ok hd
  exact ⟨d, read, View.reads_description root d read, (Description.yields_of_service h).coherent⟩

namespace Sample

/-- An array of integers, with rules for both. -/
def limitedList : Object :=
  bareObject [("type", bareText "array"), ("maxItems", .literal ⟨.int 3, default⟩),
    ("items", (bareObject [("type", bareText "integer"),
      ("minimum", .literal ⟨.int 1, default⟩)]).node)]

/-- A description with one operation, which has a required parameter. -/
def listTree : Node :=
  (bareObject [("openapi", bareText "3.0"),
    ("info", (bareObject [("title", bareText "T"), ("version", bareText "1")]).node),
    ("paths", (bareObject [("/", (bareObject [("get", (bareObject [("parameters",
      .array [(bareObject [("name", bareText "q"), ("in", bareText "query"),
        ("required", .literal ⟨.bool true, default⟩), ("schema", limitedList.node)]).node]
        default)]).node)]).node)]).node)]).node

def listSchema : SchemaOrReference := .inline (.array ⟨limitedList⟩)

/-- The constraints of an array, and of its items. -/
def listConstraints : List Constraint :=
  let loc := some (default : Text.Range).encode
  [.arrayMaxItems ⟨.int 3, loc⟩, .numberGte ⟨.int 1, loc⟩]

/-- The constraints of the parameters of a service. -/
def parameterConstraints (service : Service) : List (List Constraint) :=
  service.interfaces.flatMap fun i => i.methods.flatMap fun m =>
    m.parameters.map fun p => p.type.rules.map Rule.constraint

theorem describe_listSchema :
    (describe listTree (.none 1) listSchema "q" "").outcome.toOption.map
      (fun d => d.type.rules.map Rule.constraint) = some listConstraints := by
  have items : ArraySchema.items ⟨limitedList⟩ =
      .ok (some (.inline (.number ⟨bareObject [("type", bareText "integer"),
        ("minimum", .literal ⟨.int 1, default⟩)]⟩))) := rfl
  unfold listSchema
  rw [describe_inline, describeInPlace_array]
  simp only [items, Build.read_ok_bind, describe_inline, describeInPlace_number]
  rfl

theorem parameterConstraints_listTree :
    (convertTree options listTree).outcome.toOption.map parameterConstraints =
      some [.required :: listConstraints] := by
  cbv

end Sample

theorem synthesis_of_list_coherent :
    (∃ descriptor, (describe Sample.listTree (.none 1) Sample.listSchema "q" "").outcome =
        .ok descriptor ∧
      descriptor.type.rules.map Rule.constraint = Sample.listConstraints ∧
      ∃ target, Sample.listSchema.resolve Sample.listTree = .ok target ∧
        descriptor.Coheres Sample.listTree target) ∧
    ∃ service, (convertTree Sample.options Sample.listTree).outcome = .ok service ∧
      Sample.parameterConstraints service = [.required :: Sample.listConstraints] ∧
      ∃ d, Description.ofNode Sample.listTree = .ok d ∧ d.root = Sample.listTree ∧
        Coherent d service := by
  constructor
  · obtain ⟨descriptor, h, rules⟩ := read_map_ok Sample.describe_listSchema
    exact ⟨descriptor, h, rules, (synthesis_coherent Sample.listTree).1 _ _ _ _ _ h⟩
  · obtain ⟨service, h, rules⟩ := read_map_ok Sample.parameterConstraints_listTree
    exact ⟨service, h, rules, (synthesis_coherent Sample.listTree).2 _ _ h⟩

end ServiceModel
