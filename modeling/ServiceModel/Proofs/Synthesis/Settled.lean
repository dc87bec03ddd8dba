/-
Every use of a type that the synthesis makes is settled: it is a primitive one with one of the
names for them, or its name is defined, or it is the pointer of a reference that names no
component. "Defined" stands for what is defined in the end. What the synthesis records may be
taken to be defined, and so may the components that are objects, which it leaves to another pass.
What is recorded may depend on the names of its place, of which something may be known from the
start that the synthesis hands down.
-/
import ServiceModel.Proofs.Build.Ensures
import ServiceModel.Proofs.Synthesis.Calls

namespace ServiceModel

open Service

/-! ## Primitive types -/

/-- The names of the primitive types. -/
def primitiveTypes : List String :=
  ["string", "date", "date-time", "integer", "long", "number", "float", "double", "boolean"]

theorem StringSchema.formatTypes_primitive :
    ∀ format ∈ StringSchema.formatTypes, format ∈ primitiveTypes := by
  decide

theorem NumberSchema.formatTypes_primitive :
    ∀ format ∈ NumberSchema.formatTypes, format.2 ∈ primitiveTypes := by
  decide

/-- A schema that is neither an array nor an object has the type that it was sorted by. -/
theorem Schema.primitive_type {o : Object} {s : Schema} (h : classify o.node = some s)
    (array : ∀ s', s ≠ .array s') (object : ∀ s', s ≠ .object s') :
    ∃ l, (∀ what, o.requireText "type" what = .ok l) ∧ l.text ∈ primitiveTypes := by
  have same : o.node.object? = some o := rfl
  unfold classify at h
  rw [same] at h
  dsimp only at h
  split at h
  · cases h
    exact absurd rfl (object _)
  · rename_i type range found
    refine ⟨⟨.text type, range⟩, fun what => ?_, ?_⟩
    · unfold Object.requireText Object.text? Object.literal?
      rw [found]
    · show type ∈ primitiveTypes
      unfold ofType? at h
      split at h
      · decide
      · decide
      · decide
      · decide
      · cases h; exact absurd rfl (array _)
      · cases h; exact absurd rfl (object _)
      · cases h
  · cases h

theorem StringSchema.typeName_primitive {s : StringSchema} {name : Located String}
    (hs : Schema.classify s.object.node = some (.string s)) (h : s.typeName = .ok name) :
    name.value ∈ primitiveTypes := by
  unfold StringSchema.typeName at h
  split at h
  · rename_i format hf
    cases h
    have listed := (Option.filter_eq_some_iff.1 hf).2
    exact formatTypes_primitive _ (List.contains_iff_mem.1 listed)
  · obtain ⟨l, hl, hp⟩ := Schema.primitive_type hs nofun nofun
    rw [StringSchema.type, hl] at h
    cases h
    exact hp

theorem NumberSchema.typeName_primitive {s : NumberSchema} {name : Located String}
    (hs : Schema.classify s.object.node = some (.number s)) (h : s.typeName = .ok name) :
    name.value ∈ primitiveTypes := by
  obtain ⟨l, hl, hp⟩ := Schema.primitive_type hs nofun nofun
  obtain ⟨type, ht, h⟩ := read_bind_ok h
  rw [NumberSchema.type, hl] at ht
  cases ht
  split at h
  · rename_i narrowed hn
    cases h
    obtain ⟨format, -, found⟩ := Option.bind_eq_some_iff.1 hn
    obtain ⟨before, after, listed, -⟩ := List.lookup_eq_some_iff.1 found
    refine formatTypes_primitive ((l.text, format.text), narrowed) ?_
    rw [listed]
    exact List.mem_append_right _ List.mem_cons_self
  · cases h
    exact hp

theorem BooleanSchema.typeName_primitive {s : BooleanSchema} {name : Located String}
    (hs : Schema.classify s.object.node = some (.boolean s)) (h : s.typeName = .ok name) :
    name.value ∈ primitiveTypes := by
  obtain ⟨l, hl, hp⟩ := Schema.primitive_type hs nofun nofun
  rw [BooleanSchema.typeName, BooleanSchema.type, hl] at h
  cases h
  exact hp

/-! ## Settled uses -/

/-- The name is the pointer of a reference of the document, as it is written there, and it names
no component. -/
def LoosePointer (root : Node) (name : String) : Prop :=
  ∃ r : Reference, r.object.node.Within root ∧ r.pointer = .ok name ∧
    Pointer.schemaName? name = none

/-- The type that is used is primitive, or it is defined, or it is a loose pointer. -/
def Settled (root : Node) (defined : String → Prop) (use : TypeUse) : Prop :=
  use.isPrimitive = true ∧ use.typeName.value ∈ primitiveTypes ∨
    use.isPrimitive = false ∧ defined use.typeName.value ∨
    use.isPrimitive = false ∧ LoosePointer root use.typeName.value

/-- Every component that is an object is defined. -/
def DefinesComponents (root : Node) (defined : String → Prop) : Prop :=
  ∀ (r : Reference) (pointer component : String) (s : ObjectSchema), r.pointer = .ok pointer →
    Pointer.schemaName? pointer = some component →
    SchemaOrReference.resolve root (.reference r) = .ok (.object s) → defined component

namespace Entry

/-- The name of the definition that is recorded. -/
def name? : Entry → Option String
  | .type t => some t.name.value
  | .enum e => some e.name.value
  | .union u => some u.name.value
  | _ => none

/-- What is recorded is defined. -/
def Defined (defined : String → Prop) (e : Entry) : Prop := ∀ name, e.name? = some name → defined name

/-- What is recorded makes settled uses. -/
def Settled (root : Node) (defined : String → Prop) : Entry → Prop
  | .type t => ∀ p ∈ t.properties, ServiceModel.Settled root defined p.type
  | .union u => ∀ m ∈ u.members, ServiceModel.Settled root defined m
  | _ => True

end Entry

namespace Call

/-- The call stands in the document. -/
def Of (root : Node) : Call → Prop
  | describe _ schema _ _ => SchemaOrReference.Of root schema
  | inPlace _ schema _ _ => schema.Of root
  | properties _ s _ _ => s.object.node.Within root

/-- The names of the place where the call stands satisfy predicates: of a name inside its parent, and
of a schema and the parent of its properties. -/
def Placed (N : String → String → Prop) (M : ObjectSchema → String → Prop) : Call → Prop
  | describe _ _ name parent => N name parent
  | inPlace _ _ name parent => N name parent
  | properties _ s parent _ => M s parent

/-- The uses of types in an answer satisfy a predicate. -/
def Uses (U : TypeUse → Prop) : (call : Call) → call.Answer → Prop
  | describe .., d => U d.type
  | inPlace .., d => U d.type
  | properties .., members => ∀ m ∈ members, U m.type

theorem Makes.of {root : Node} {call made : Call} (h : Makes root call made)
    (hc : call.Of root) : made.Of root := by
  cases h with
  | inPlace => exact hc
  | @component _ _ r _ _ _ _ _ _ ht _ _ _ _ =>
    have hr : SchemaOrReference.Of root (.reference r) := hc
    exact SchemaOrReference.of_resolve hr ht
  | items h => exact SchemaOrReference.of_child hc.within h
  | member h hm =>
    obtain ⟨n, hn, hr⟩ := ObjectSchema.composition_member h hm
    exact ObjectSchema.of_member (hn.within.trans hc.within) hr
  | properties _ => exact hc.within
  | branch _ ha hb _ _ ht =>
    obtain ⟨n, hn, hr⟩ := ObjectSchema.composition_member ha hb
    have hm := ObjectSchema.of_member (hn.within.trans hc) hr
    exact (SchemaOrReference.of_resolve hm ht).within
  | property _ hp he hs =>
    have hn := (ObjectSchema.property_below hp he).within.trans hc
    exact SchemaOrReference.of_ofNode hn hs

end Call

/-! ## What a synthesis ensures -/

/-- The uses of the types that are the alternatives of a schema. -/
def usesOf (root : Node) (guards : Guards) (members : List (OrReference ObjectSchema))
    (name parent : String) : Build (List TypeUse) :=
  members.mapM fun member => do
    return (← describe root guards member.asSchema name parent).type

/-- What enums are called: after a place that satisfies the predicate, or after a component. -/
inductive NamesEnum (N : String → String → Prop) : Located String → Prop
  | place {name parent : String} : N name parent → NamesEnum N ⟨Naming.ofEnum parent name, none⟩
  | component {pointer component : String} {loc : Option String} :
      Pointer.schemaName? pointer = some component → NamesEnum N ⟨component, loc⟩

/-- Predicates of records and of uses of types that every synthesis in the document ensures, while
it relies on others of the records: a condition for each way in which it makes a use or a record.
It starts in places whose names satisfy `N` and `M`, which every step from place to place keeps. -/
structure Constructs (root : Node) (N : String → String → Prop) (M : ObjectSchema → String → Prop)
    (A P : Entry → Prop) (U : TypeUse → Prop) : Prop where
  /-- The properties of a shape stand under its name. -/
  shape : ∀ {s : ObjectSchema} {name parent : String},
    N name parent → M s (Naming.ofShape parent name)
  branch : ∀ {s b : ObjectSchema} {branches : List (OrReference ObjectSchema)}
    {branch : OrReference ObjectSchema} {parent : String},
    s.allOf = .ok (some branches) → branch ∈ branches →
    branch.asSchema.resolve root = .ok (.object b) → M s parent → M b parent
  property : ∀ {s : ObjectSchema} {index : Object} {entry : Key × Node} {parent : String},
    s.allOf = .ok none → s.properties = .ok (some index) → entry ∈ index.entries →
    M s parent → N entry.1.name parent
  primitive : ∀ {t : TypeUse}, t.isPrimitive = true → t.typeName.value ∈ primitiveTypes → U t
  loose : ∀ {t : TypeUse}, t.isPrimitive = false → LoosePointer root t.typeName.value → U t
  /-- Nothing is recorded for a component that is an object. -/
  component : ∀ {t : TypeUse} {r : Reference} {pointer : String} {s : ObjectSchema},
    t.isPrimitive = false → r.pointer = .ok pointer →
    Pointer.schemaName? pointer = some t.typeName.value →
    SchemaOrReference.resolve root (.reference r) = .ok (.object s) → U t
  recorded : ∀ {t : TypeUse} {e : Entry},
    t.isPrimitive = false → e.name? = some t.typeName.value → A e → U t
  /-- The rules do not matter, nor does it whether it is an array. -/
  renewed : ∀ {t : TypeUse} {isArray : Bool} {rules : List Rule},
    U t → U ⟨t.typeName, t.isPrimitive, isArray, rules⟩
  enum : ∀ {s : StringSchema} {name : Located String} {values : List Literal},
    s.object.node.Within root → s.enum = .ok (some values) → NamesEnum N name →
    P (.enum (s.enumDef name values))
  type : ∀ {guards : Guards} {s : ObjectSchema} {name parent : String} {properties : List Member},
    s.object.node.Within root → N name parent →
    (propertiesOf root guards s (Naming.ofShape parent name) []).outcome = .ok properties →
    (∀ m ∈ properties, U m.type) →
    P (.type ⟨⟨Naming.ofShape parent name, none⟩, s.description?.map Literal.locatedText,
      properties, s.rules, some s.object.loc, none⟩)
  union : ∀ {guards : Guards} {s : ObjectSchema} {members : List (OrReference ObjectSchema)}
    {uses : List TypeUse} {name parent : String},
    s.object.node.Within root → N name parent → s.oneOf = .ok (some members) →
    (usesOf root guards members name parent).outcome = .ok uses → (∀ u ∈ uses, U u) →
    P (.union ⟨⟨Naming.ofShape parent name, none⟩, uses, some s.object.loc, s.object.metadata⟩)

/-- What is ensured of a call. -/
abbrev Call.Ensured (root : Node) (A P : Entry → Prop) (U : TypeUse → Prop) (call : Call) : Prop :=
  Build.Ensures A P (call.Uses U) (call.run root)

namespace Constructs

open Call

variable {root : Node} {N : String → String → Prop} {M : ObjectSchema → String → Prop}
  {A P : Entry → Prop} {U : TypeUse → Prop} (constructs : Constructs root N M A P U)

include constructs

/-- What is known of the names of a place is handed down to the places inside it. -/
theorem placed {call made : Call} (place : call.Placed N M) (h : Makes root call made) :
    made.Placed N M := by
  cases h with
  | inPlace => exact place
  | component => exact place
  | items => exact place
  | member => exact place
  | properties => exact constructs.shape place
  | branch _ ha hb _ _ ht => exact constructs.branch ha hb ht place
  | property ha hp he _ => exact constructs.property ha hp he place

theorem enum_recorded {s : StringSchema} {name : Located String} {values : List Literal}
    {rules : List Rule} {loc : String} (within : s.object.node.Within root)
    (listed : s.enum = .ok (some values)) (named : NamesEnum N name) :
    Build.Ensures A P (fun d : Descriptor => U d.type) (do
      Build.record (.enum (s.enumDef name values))
      return .named name rules loc) := by
  refine .bind (.record fun _ => constructs.enum within listed named) fun _ _ hd => ?_
  exact .pure (constructs.recorded rfl rfl hd)

/-! ### One round -/

theorem describe_step {guards : Guards} {schema : SchemaOrReference} {name parent : String}
    (hc : SchemaOrReference.Of root schema)
    (made : ∀ made, Makes root (.describe guards schema name parent) made → made.Ensured root A P U) :
    Ensured root A P U (.describe guards schema name parent) := by
  cases schema with
  | inline s =>
    have same := made _ .inPlace
    rw [Ensured, Call.run, describe_inline]
    exact same
  | reference r =>
    rw [Ensured, Call.run, describe_reference]
    refine .lift_bind fun pointer hp => ?_
    refine .lift_bind fun target ht => ?_
    refine .lift_bind fun rules _ => ?_
    cases hn : Pointer.schemaName? pointer with
    | none =>
      -- the pointer itself becomes the name
      refine .lift_bind fun loc _ => ?_
      exact .pure (constructs.loose rfl ⟨r, hc, hp, hn⟩)
    | some component =>
      refine .lift_bind fun loc _ => ?_
      have elsewhere := fun hf notObject inner (hi : guards.enter pointer = .ok inner) =>
        made _ (.component hp ht hn hf notObject hi)
      cases target with
      | object s => exact .pure (constructs.component rfl hp hn ht)
      | string s =>
        have within := (@SchemaOrReference.of_resolve root (.reference r) hc _ ht).within
        refine .lift_bind fun found hf => ?_
        cases found with
        | some found =>
          obtain ⟨listed, hl, found'⟩ := read_bind_ok hf
          cases listed with
          | none => cases found'
          | some values =>
            cases found'
            exact constructs.enum_recorded within hl (.component hn)
        | none => exact .lift_bind fun inner hi => elsewhere hf nofun inner hi
      | _ =>
        refine .lift_bind fun found hf => ?_
        cases found with
        | some found => cases hf
        | none => exact .lift_bind fun inner hi => elsewhere hf nofun inner hi

theorem inPlace_step {guards : Guards} {schema : Schema} {name parent : String}
    (hc : schema.Of root) (place : N name parent)
    (made : ∀ made, Makes root (.inPlace guards schema name parent) made →
      made.Ensured root A P U) :
    Ensured root A P U (.inPlace guards schema name parent) := by
  cases schema with
  | string s =>
    rw [Ensured, Call.run, describeInPlace_string]
    refine .lift_bind fun rules _ => ?_
    refine .lift_bind fun found hf => ?_
    cases found with
    | some values => exact constructs.enum_recorded hc.within hf (.place place)
    | none =>
      refine .lift_bind fun typeName ht => ?_
      exact .pure (constructs.primitive rfl (StringSchema.typeName_primitive hc.classified ht))
  | number s =>
    rw [Ensured, Call.run, describeInPlace_number]
    refine .lift_bind fun rules _ => ?_
    refine .lift_bind fun typeName ht => ?_
    exact .pure (constructs.primitive rfl (NumberSchema.typeName_primitive hc.classified ht))
  | boolean s =>
    rw [Ensured, Call.run, describeInPlace_boolean]
    refine .lift_bind fun rules _ => ?_
    refine .lift_bind fun typeName ht => ?_
    exact .pure (constructs.primitive rfl (BooleanSchema.typeName_primitive hc.classified ht))
  | array s =>
    rw [Ensured, Call.run, describeInPlace_array]
    refine .lift_bind fun rules _ => ?_
    refine .lift_bind fun found hf => ?_
    cases found with
    | none => exact .fail
    | some items => exact .bind (made _ (.items hf)) fun item _ hi => .pure (constructs.renewed hi)
  | object s =>
    rw [Ensured, Call.run, describeInPlace_object]
    refine .lift_bind fun rules _ => ?_
    refine .lift_bind fun found hf => ?_
    cases found with
    | none =>
      refine .bind (made _ (.properties hf)) fun properties hp hu => ?_
      refine .bind (.record fun _ => constructs.type hc.within place hp hu) fun _ _ hd => ?_
      exact .pure (constructs.recorded rfl rfl hd)
    | some members =>
      refine .bind (Q := fun uses => ∀ u ∈ uses, U u) (.mapM fun m hm => ?_) fun uses hu hd => ?_
      · exact .bind (made _ (.member hf hm)) fun d _ hd => .pure hd
      · refine .bind (.record fun _ => constructs.union hc.within place hf hu hd) fun _ _ hd => ?_
        exact .pure (constructs.recorded rfl rfl hd)

theorem properties_step {guards : Guards} {s : ObjectSchema} {parent : String}
    {inherited : List Literal}
    (made : ∀ made, Makes root (.properties guards s parent inherited) made →
      made.Ensured root A P U) :
    Ensured root A P U (.properties guards s parent inherited) := by
  rw [Ensured, Call.run, propertiesOf_eq]
  refine .lift_bind fun own ho => ?_
  refine .lift_bind fun found hf => ?_
  cases found with
  | some branches =>
    refine .bind (Q := fun merged => ∀ ms ∈ merged, ∀ m ∈ ms, U m.type) (.mapM fun branch hb => ?_)
      fun merged _ hm => ?_
    · refine .lift_bind fun key hk => ?_
      refine .lift_bind fun inner hi => ?_
      refine .lift_bind fun target ht => ?_
      cases target with
      | object b => exact made _ (.branch ho hf hb hk hi ht)
      | _ => exact .pure fun m hm => nomatch hm
    · refine .pure fun m hml => ?_
      obtain ⟨ms, hms, hm'⟩ := List.mem_flatten.1 hml
      exact hm ms hms m hm'
  | none =>
    refine .lift_bind fun found' hf' => ?_
    cases found' with
    | none => exact .pure fun m hm => nomatch hm
    | some index =>
      refine .mapM fun entry he => ?_
      refine .lift_bind fun schema hs => ?_
      refine .lift_bind fun resolved _ => ?_
      refine .bind (made _ (.property hf hf' he hs)) fun type _ ht => ?_
      exact .lift_bind fun rules _ => .pure (constructs.renewed ht)

/-! ### All rounds -/

/-- Every call that stands in the document ensures what its constructs do. -/
theorem ensures (call : Call) (hc : call.Of root) (place : call.Placed N M) :
    call.Ensured root A P U := by
  induction call using Call.induction root with
  | step call ih =>
    have made := fun made hm => ih made hm (hm.of hc) (constructs.placed place hm)
    cases call with
    | describe guards schema name parent => exact constructs.describe_step hc made
    | inPlace guards schema name parent => exact constructs.inPlace_step hc place made
    | properties guards s parent inherited => exact constructs.properties_step made

end Constructs

/-! ## Settled uses in a synthesis -/

theorem constructs_settled {root : Node} {defined : String → Prop}
    (components : DefinesComponents root defined) :
    Constructs root (fun _ _ => True) (fun _ _ => True) (Entry.Defined defined)
      (Entry.Settled root defined) (Settled root defined) where
  shape _ := trivial
  branch _ _ _ _ := trivial
  property _ _ _ _ := trivial
  primitive isPrimitive name := .inl ⟨isPrimitive, name⟩
  loose named pointer := .inr (.inr ⟨named, pointer⟩)
  component named hp hn ht := .inr (.inl ⟨named, components _ _ _ _ hp hn ht⟩)
  recorded named name defined := .inr (.inl ⟨named, defined _ name⟩)
  renewed settled := settled
  enum _ _ _ := trivial
  type _ _ _ settled := settled
  union _ _ _ _ settled := settled

end ServiceModel
