/-
Descriptors agree with the schemas that they describe. What is read of a schema beside its
descriptor, where it is used as the type of a property or a parameter, is what the descriptor was
made of: the rules of the two are the same, and a use of the type has those of the descriptor,
after the one that the value has to be present.
-/
import ServiceModel.Proofs.Synthesis.Flattening
import ServiceModel.Proofs.Synthesis.Origins

namespace ServiceModel

open Service

variable {root : Node}

/-! ## Descriptors -/

/-- The descriptor agrees with the schema that is described. -/
structure Descriptor.Coheres (root : Node) (target : Schema) (d : Descriptor) : Prop where
  rules : target.rules root = .ok d.type.rules
  loc : d.loc = target.node.loc
  isArray : d.type.isArray = true → ∃ s, target = .array s
  /-- Values are kept of primitive types alone, and not of arrays of them. -/
  values : d.default.isSome ∨ d.constant.isSome →
    d.type.isPrimitive = true ∧ d.type.isArray = false

namespace Descriptor

variable {target : Schema} {rules : List Rule}

theorem coheres_named (h : target.rules root = .ok rules) (name : Located String) :
    (named name rules target.node.loc).Coheres root target where
  rules := h
  loc := rfl
  isArray array := by cases array
  values given := by rcases given with given | given <;> cases given

theorem coheres_primitive (h : target.rules root = .ok rules) (name : Located String)
    (default constant : Option Literal) :
    (primitive name rules default constant target.node.loc).Coheres root target where
  rules := h
  loc := rfl
  isArray array := by cases array
  values _ := ⟨rfl, rfl⟩

theorem coheres_arrayOf {s : ArraySchema} (h : (Schema.array s).rules root = .ok rules)
    (item : Descriptor) : (arrayOf item rules s.object.loc).Coheres root (.array s) where
  rules := h
  loc := rfl
  isArray _ := ⟨s, rfl⟩
  values given := by rcases given with given | given <;> cases given

end Descriptor

/-- Each kind of schema has its own way to a descriptor, and all of them take its rules along. -/
theorem describeInPlace_coheres {guards : Guards} {schema : Schema} {name parent : String}
    {d : Descriptor} (h : (describeInPlace root guards schema name parent).outcome = .ok d) :
    d.Coheres root schema := by
  cases schema with
  | string s =>
    rw [describeInPlace_string] at h
    obtain ⟨rules, hr, h⟩ := Build.lift_bind_ok h
    obtain ⟨listed, -, h⟩ := Build.lift_bind_ok h
    cases listed with
    | some values =>
      obtain ⟨_, -, h, -⟩ := Build.bind_ok h
      cases Build.pure_ok h
      exact Descriptor.coheres_named hr _
    | none =>
      obtain ⟨typeName, -, h⟩ := Build.lift_bind_ok h
      cases Build.pure_ok h
      exact Descriptor.coheres_primitive hr _ _ _
  | number s =>
    rw [describeInPlace_number] at h
    obtain ⟨rules, hr, h⟩ := Build.lift_bind_ok h
    obtain ⟨typeName, -, h⟩ := Build.lift_bind_ok h
    cases Build.pure_ok h
    exact Descriptor.coheres_primitive hr _ _ _
  | boolean s =>
    rw [describeInPlace_boolean] at h
    obtain ⟨rules, hr, h⟩ := Build.lift_bind_ok h
    obtain ⟨typeName, -, h⟩ := Build.lift_bind_ok h
    cases Build.pure_ok h
    exact Descriptor.coheres_primitive hr _ _ _
  | array s =>
    rw [describeInPlace_array] at h
    obtain ⟨rules, hr, h⟩ := Build.lift_bind_ok h
    obtain ⟨found, -, h⟩ := Build.lift_bind_ok h
    cases found with
    | none => cases h
    | some items =>
      obtain ⟨item, -, h, -⟩ := Build.bind_ok h
      cases Build.pure_ok h
      exact Descriptor.coheres_arrayOf hr item
  | object s =>
    rw [describeInPlace_object] at h
    obtain ⟨rules, hr, h⟩ := Build.lift_bind_ok h
    obtain ⟨found, -, h⟩ := Build.lift_bind_ok h
    -- a union or a type is recorded, and in both cases its name is used
    cases found with
    | some members =>
      obtain ⟨uses, -, h, -⟩ := Build.bind_ok h
      obtain ⟨_, -, h, -⟩ := Build.bind_ok h
      cases Build.pure_ok h
      exact Descriptor.coheres_named hr _
    | none =>
      obtain ⟨properties, -, h, -⟩ := Build.bind_ok h
      obtain ⟨_, -, h, -⟩ := Build.bind_ok h
      cases Build.pure_ok h
      exact Descriptor.coheres_named hr _

/-- A reference is described as what it leads to, be that the use of its name or in place. -/
theorem describe_reference_coheres {guards : Guards} {r : Reference} {name parent : String}
    {d : Descriptor} (h : (describe root guards (.reference r) name parent).outcome = .ok d) :
    ∃ target, SchemaOrReference.resolve root (.reference r) = .ok target ∧
      d.Coheres root target := by
  rw [describe_reference] at h
  obtain ⟨pointer, -, h⟩ := Build.lift_bind_ok h
  obtain ⟨target, ht, h⟩ := Build.lift_bind_ok h
  obtain ⟨rules, hr, h⟩ := Build.lift_bind_ok h
  refine ⟨target, ht, ?_⟩
  cases hn : Pointer.schemaName? pointer with
  | none =>
    rw [hn] at h
    obtain ⟨loc, -, h⟩ := Build.lift_bind_ok h
    cases Build.pure_ok h
    exact Descriptor.coheres_named hr _
  | some component =>
    rw [hn] at h
    obtain ⟨loc, -, h⟩ := Build.lift_bind_ok h
    cases target with
    | object s =>
      cases Build.pure_ok h
      exact Descriptor.coheres_named hr _
    | _ =>
      obtain ⟨listed, -, h⟩ := Build.lift_bind_ok h
      cases listed with
      | some found =>
        obtain ⟨_, -, h, -⟩ := Build.bind_ok h
        cases Build.pure_ok h
        exact Descriptor.coheres_named hr _
      | none =>
        obtain ⟨inner, -, h⟩ := Build.lift_bind_ok h
        exact describeInPlace_coheres h

/-- Where a schema or a reference has a descriptor, it leads to a schema, with which the descriptor
agrees. -/
theorem describe_coheres {guards : Guards} {schema : SchemaOrReference} {name parent : String}
    {d : Descriptor} (h : (describe root guards schema name parent).outcome = .ok d) :
    ∃ target, schema.resolve root = .ok target ∧ d.Coheres root target := by
  cases schema with
  | inline s =>
    rw [describe_inline] at h
    exact ⟨s, rfl, describeInPlace_coheres h⟩
  | reference r => exact describe_reference_coheres h

/-! ## Uses of types -/

/-- The rule of a value that has to be present, if it has to be. -/
def presence (isRequired : Bool) : List Rule := if isRequired then [⟨.required, none⟩] else []

/-- The type is used as the descriptor of a schema has it, under these names, with its rules after
that of a value that has to be present. -/
def Service.TypeUse.DrawnFrom (root : Node) (schema : SchemaOrReference) (name parent : String)
    (isRequired : Bool) (use : TypeUse) : Prop :=
  ∃ guards d target, (describe root guards schema name parent).outcome = .ok d ∧
    schema.resolve root = .ok target ∧ d.Coheres root target ∧
    use = { d.type with rules := presence isRequired ++ d.type.rules }

theorem Schema.rulesWhen_eq {s : Schema} {isRequired : Bool} {rules : List Rule}
    (h : s.rules root = .ok rules) :
    s.rulesWhen root isRequired = .ok (presence isRequired ++ rules) := by
  rw [rulesWhen, h]
  cases isRequired <;> rfl

/-- The type of a returned value or of an alternative is the one of the descriptor. -/
theorem drawnFrom_described {guards : Guards} {schema : SchemaOrReference} {name parent : String}
    {d : Descriptor} (h : (describe root guards schema name parent).outcome = .ok d) :
    d.type.DrawnFrom root schema name parent false := by
  obtain ⟨target, ht, coheres⟩ := describe_coheres h
  exact ⟨guards, d, target, h, ht, coheres, rfl⟩

/-- The rules of a property or a parameter are read again, and are those of the descriptor. -/
theorem drawnFrom_read {guards : Guards} {schema : SchemaOrReference} {name parent : String}
    {d : Descriptor} {target : Schema} {isRequired : Bool} {rules : List Rule}
    (ht : schema.resolve root = .ok target)
    (h : (describe root guards schema name parent).outcome = .ok d)
    (hr : target.rulesWhen root isRequired = .ok rules) :
    TypeUse.DrawnFrom root schema name parent isRequired
      ⟨d.type.typeName, d.type.isPrimitive, d.type.isArray, rules⟩ := by
  obtain ⟨target', ht', coheres⟩ := describe_coheres h
  cases ht.symm.trans ht'
  cases hr.symm.trans (Schema.rulesWhen_eq coheres.rules)
  exact ⟨guards, d, target, h, ht, coheres, rfl⟩

/-! ## Definitions -/

/-- The properties that a leaf declares under a parent are drawn from its entries, in order. The
value of a property has to be present if the leaf requires its name. -/
def Leaf.Draws (root : Node) (parent : String) (leaf : Leaf) (part : List Member) : Prop :=
  match leaf.schema.properties with
  | .ok (some index) =>
    List.Forall₂ (fun entry m => m.name.value = entry.1.name ∧
      ∃ schema, SchemaOrReference.ofNode entry.2 = .ok schema ∧
        m.type.DrawnFrom root schema entry.1.name parent
          (leaf.required.any (·.text == entry.1.name))) index.entries part
  | .ok none => part = []
  | .error _ => False

theorem Leaf.Declares.draws {leaf : Leaf} {parent : String} {part : List Member}
    (h : leaf.Declares root parent part) : leaf.Draws root parent part := by
  obtain ⟨guards, h⟩ := h
  obtain ⟨found, hf, h⟩ := Build.lift_bind_ok h
  unfold Draws
  rw [hf]
  cases found with
  | none =>
    cases Build.pure_ok h
    rfl
  | some index =>
    refine (Build.mapM_forall₂ h).imp fun entry m h => ?_
    obtain ⟨schema, hs, h⟩ := Build.lift_bind_ok h
    obtain ⟨target, ht, h⟩ := Build.lift_bind_ok h
    obtain ⟨d, hd, h, -⟩ := Build.bind_ok h
    obtain ⟨rules, hr, h⟩ := Build.lift_bind_ok h
    cases Build.pure_ok h
    exact ⟨rfl, schema, hs, drawnFrom_read ht hd hr⟩

namespace Service

/-- The properties of a type are drawn from the leaves of an object schema of the document, one
leaf after the other. -/
def TypeDef.Drawn (root : Node) (t : TypeDef) : Prop :=
  ∃ s : ObjectSchema, s.object.node.Within root ∧ ∃ leaves parts, Leaves root s [] leaves ∧
    List.Forall₂ (Leaf.Draws root t.name.value) leaves parts ∧ t.properties = parts.flatten

/-- The members of a union are drawn from the alternatives of an object schema of the document. -/
def UnionDef.Drawn (root : Node) (u : UnionDef) : Prop :=
  ∃ s : ObjectSchema, s.object.node.Within root ∧ ∃ name parent members,
    u.name.value = Naming.ofShape parent name ∧ s.oneOf = .ok (some members) ∧
    List.Forall₂ (fun (m : OrReference ObjectSchema) use =>
      use.DrawnFrom root m.asSchema name parent false) members u.members

theorem TypeDef.MadeOf.drawn {t : TypeDef} {s : ObjectSchema} (h : t.MadeOf root s) :
    t.Drawn root := by
  obtain ⟨guards, hp⟩ := h.properties
  obtain ⟨leaves, parts, only, declared, same⟩ := propertiesOf_flat hp
  exact ⟨s, h.within, leaves, parts, (only _).2 rfl, declared.imp fun _ _ hl => hl.draws, same⟩

theorem UnionDef.MadeOf.drawn {u : UnionDef} {s : ObjectSchema} {name parent : String}
    (h : u.MadeOf root s name parent) : u.Drawn root := by
  obtain ⟨guards, members, hm, hu⟩ := h.members
  refine ⟨s, h.within, name, parent, members, by rw [h.named], hm, ?_⟩
  refine (Build.mapM_forall₂ hu).imp fun m use h => ?_
  obtain ⟨d, hd, h, -⟩ := Build.bind_ok h
  cases Build.pure_ok h
  exact drawnFrom_described hd

end Service

end ServiceModel
