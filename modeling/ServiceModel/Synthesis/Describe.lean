/-
The synthesis of types: a schema at a place gets a descriptor, and every type, enum and union that
is met on the way is recorded.

References may lead anywhere, also back. Two things end the recursion: a step into a schema in
place goes to a smaller one, and a step through a reference that could come back holds one more
guard.
-/
import ServiceModel.Build
import ServiceModel.Guards
import ServiceModel.OpenApi.Component
import ServiceModel.OpenApi.Size
import ServiceModel.Synthesis.Descriptor

namespace ServiceModel

open Service

/-! ## Keys and properties -/

/-- The key under which a branch is guarded: its pointer, or else its span. -/
def OrReference.guardKey : OrReference ObjectSchema → Except Failure String
  | .inline s => .ok ("allOf@" ++ s.object.loc)
  | .reference r => r.pointer

/-- What a schema says about its values. -/
def Schema.description? : Schema → Option Literal
  | .string s => s.description?
  | .number s => s.description?
  | .boolean s => s.description?
  | .array s => s.description?
  | .object s => s.description?

/-- The values that an enum lists. -/
def Schema.enum? : Schema → Except Failure (Option (StringSchema × List Literal))
  | .string s => do return (← s.enum).map fun values => (s, values)
  | _ => .ok none

/-- The property of a type that an entry among its properties is, by its schema and descriptor. -/
def propertyOf (index : Object) (name : String) (schema : Schema) (type : Descriptor)
    (rules : List Rule) : Member where
  name := ⟨name, index.keyLoc? name⟩
  description := schema.description?.map fun l => .one l.locatedText
  type := ⟨type.type.typeName, type.type.isPrimitive, type.type.isArray, rules⟩
  default := type.default
  constant := type.constant
  loc := some schema.node.loc
  metadata := schema.node.metadata

/-! ## Descriptors -/

mutual

/-- The descriptor of a schema or of what a reference leads to, where it is used under a name
inside its parent. A reference to a component is the use of its type, if it has one. -/
def describe (root : Node) (guards : Guards) (schema : SchemaOrReference)
    (name parent : String) : Build Descriptor :=
  match schema with
  | .inline s => describeInPlace root guards s name parent
  | .reference r => do
    let pointer ← r.pointer
    let target ← SchemaOrReference.resolve root (.reference r)
    let rules ← target.rules root
    match Pointer.schemaName? pointer with
    | none => return .named ⟨pointer, some (← root.pointerLoc pointer)⟩ rules target.node.loc
    | some component => do
      let typeName : Located String := ⟨component, some (← root.pointerLoc pointer)⟩
      match target with
      | .object _ => return .named typeName rules target.node.loc
      | _ =>
        match ← target.enum? with
        | some (s, values) => do
          Build.record (.enum (s.enumDef typeName values))
          return .named typeName rules target.node.loc
        | none => do
          let ⟨inner, _⟩ ← Build.read (guards.enter pointer)
          describeInPlace root inner target name parent
termination_by (guards.room, schema.size, 2)
decreasing_by
  · exact Prod.Lex.right _ (Prod.Lex.right _ (by decide))
  · exact Prod.Lex.left _ _ (Guards.room_enter (by assumption))

/-- The descriptor of a schema in place. -/
def describeInPlace (root : Node) (guards : Guards) (schema : Schema) (name parent : String) :
    Build Descriptor := do
  let rules ← schema.rules root
  let loc := schema.node.loc
  match schema with
  | .string s =>
    match ← s.enum with
    | some values => do
      let typeName : Located String := ⟨Naming.ofEnum parent name, none⟩
      Build.record (.enum (s.enumDef typeName values))
      return .named typeName rules loc
    | none => return .primitive (← s.typeName) rules s.default? s.const? loc
  | .number s => return .primitive (← s.typeName) rules s.default? s.const? loc
  | .boolean s => return .primitive (← s.typeName) rules s.default? s.const? loc
  | .array s =>
    match ← Build.read s.items with
    | ⟨none, _⟩ => Build.fail (.shape (.noItems s.object.start))
    | ⟨some items, _⟩ => return .arrayOf (← describe root guards items name parent) rules loc
  | .object s => do
    let typeName : Located String := ⟨Naming.ofShape parent name, none⟩
    match ← Build.read s.oneOf with
    | ⟨some members, _⟩ => do
      let uses ← members.attach.mapM fun ⟨member, _⟩ => do
        return (← describe root guards member.asSchema name parent).type
      Build.record (.union ⟨typeName, uses, some loc, s.object.metadata⟩)
    | ⟨none, _⟩ => do
      let properties ← propertiesOf root guards s typeName.value []
      Build.record (.type ⟨typeName, s.description?.map Literal.locatedText, properties, s.rules,
        some loc, none⟩)
    return .named typeName rules loc
termination_by (guards.room, schema.size, 1)
decreasing_by
  · exact Prod.Lex.right _ (Prod.Lex.left _ _ (ArraySchema.size_lt_of_items (by assumption)))
  · exact Prod.Lex.right _ (Prod.Lex.left _ _
      (ObjectSchema.size_lt_of_composition (by assumption) (by assumption)))
  · exact Prod.Lex.right _ (Prod.Lex.right _ (by decide))

/-- The properties of an object schema under a parent, where more names are required than the
schema says. A schema with branches has the properties of its branches, to which its requirements
are handed down; what stands beside them is not read. -/
def propertiesOf (root : Node) (guards : Guards) (s : ObjectSchema) (parent : String)
    (inherited : List Literal) : Build (List Member) := do
  let required := (← s.required) ++ inherited
  match ← Build.read s.allOf with
  | ⟨some branches, _⟩ => do
    let merged ← branches.mapM fun branch => do
      let key ← branch.guardKey
      let ⟨inner, _⟩ ← Build.read (guards.enter key)
      match ← branch.asSchema.resolve root with
      | .object b => propertiesOf root inner b parent required
      | _ => return []
    return merged.flatten
  | ⟨none, _⟩ =>
    match ← Build.read s.properties with
    | ⟨none, _⟩ => return []
    | ⟨some index, _⟩ =>
      index.entries.attach.mapM fun ⟨entry, _⟩ => do
        let ⟨schema, _⟩ ← Build.read (SchemaOrReference.ofNode entry.2)
        let resolved ← schema.resolve root
        let type ← describe root guards schema entry.1.name parent
        let rules ← resolved.rulesWhen root (required.any (·.text == entry.1.name))
        return propertyOf index entry.1.name resolved type rules
termination_by (guards.room, s.object.size, 0)
decreasing_by
  · exact Prod.Lex.left _ _ (Guards.room_enter (by assumption))
  · exact Prod.Lex.right _ (Prod.Lex.left _ _ (Nat.lt_of_lt_of_le
      (SchemaOrReference.size_lt_of_ofNode (by assumption))
      (Nat.le_trans (Node.count_le_entryCount (by assumption))
        (Nat.le_of_lt (ObjectSchema.size_lt_of_properties (by assumption))))))

end

/-! ## Equations -/

theorem describe_inline (root : Node) (guards : Guards) (s : Schema) (name parent : String) :
    describe root guards (.inline s) name parent = describeInPlace root guards s name parent := by
  rw [describe]

theorem describe_reference (root : Node) (guards : Guards) (r : Reference) (name parent : String) :
    describe root guards (.reference r) name parent = (do
      let pointer ← r.pointer
      let target ← SchemaOrReference.resolve root (.reference r)
      let rules ← target.rules root
      match Pointer.schemaName? pointer with
      | none => return .named ⟨pointer, some (← root.pointerLoc pointer)⟩ rules target.node.loc
      | some component => do
        let typeName : Located String := ⟨component, some (← root.pointerLoc pointer)⟩
        match target with
        | .object _ => return .named typeName rules target.node.loc
        | _ =>
          match ← target.enum? with
          | some (s, values) => do
            Build.record (.enum (s.enumDef typeName values))
            return .named typeName rules target.node.loc
          | none => do
            let inner ← guards.enter pointer
            describeInPlace root inner target name parent) := by
  rw [describe]
  congr 1
  funext pointer
  congr 1
  funext target
  congr 1
  funext rules
  cases Pointer.schemaName? pointer with
  | none => rfl
  | some component =>
    simp only
    congr 1
    funext loc
    cases target with
    | object s => rfl
    | _ =>
      simp only
      congr 1
      funext listed
      cases listed with
      | some found => rfl
      | none => exact Build.read_bind fun inner hi => rfl

theorem describeInPlace_string (root : Node) (guards : Guards) (s : StringSchema)
    (name parent : String) :
    describeInPlace root guards (.string s) name parent = (do
      let rules ← (Schema.string s).rules root
      match ← s.enum with
      | some values => do
        let typeName : Located String := ⟨Naming.ofEnum parent name, none⟩
        Build.record (.enum (s.enumDef typeName values))
        return .named typeName rules s.object.loc
      | none => return .primitive (← s.typeName) rules s.default? s.const? s.object.loc) := by
  rw [describeInPlace]
  rfl

theorem describeInPlace_number (root : Node) (guards : Guards) (s : NumberSchema)
    (name parent : String) :
    describeInPlace root guards (.number s) name parent = (do
      let rules ← (Schema.number s).rules root
      return .primitive (← s.typeName) rules s.default? s.const? s.object.loc) := by
  rw [describeInPlace]
  rfl

theorem describeInPlace_boolean (root : Node) (guards : Guards) (s : BooleanSchema)
    (name parent : String) :
    describeInPlace root guards (.boolean s) name parent = (do
      let rules ← (Schema.boolean s).rules root
      return .primitive (← s.typeName) rules s.default? s.const? s.object.loc) := by
  rw [describeInPlace]
  rfl

theorem describeInPlace_array (root : Node) (guards : Guards) (s : ArraySchema)
    (name parent : String) :
    describeInPlace root guards (.array s) name parent = (do
      let rules ← (Schema.array s).rules root
      match ← s.items with
      | none => Build.fail (.shape (.noItems s.object.start))
      | some items =>
        return .arrayOf (← describe root guards items name parent) rules s.object.loc) := by
  rw [describeInPlace]
  congr 1
  funext rules
  refine Build.read_bind fun found hf => ?_
  cases found <;> rfl

theorem describeInPlace_object (root : Node) (guards : Guards) (s : ObjectSchema)
    (name parent : String) :
    describeInPlace root guards (.object s) name parent = (do
      let rules ← (Schema.object s).rules root
      let typeName : Located String := ⟨Naming.ofShape parent name, none⟩
      match ← s.oneOf with
      | some members => do
        let uses ← members.mapM fun member => do
          return (← describe root guards member.asSchema name parent).type
        Build.record (.union ⟨typeName, uses, some s.object.loc, s.object.metadata⟩)
      | none => do
        let properties ← propertiesOf root guards s typeName.value []
        Build.record (.type ⟨typeName, s.description?.map Literal.locatedText, properties, s.rules,
          some s.object.loc, none⟩)
      return .named typeName rules s.object.loc) := by
  rw [describeInPlace]
  congr 1
  funext rules
  refine Build.read_bind fun found hf => ?_
  cases found with
  | none => rfl
  | some members =>
    simp only
    let use (member : OrReference ObjectSchema) : Build TypeUse := do
      return (← describe root guards member.asSchema name parent).type
    have same : members.attach.mapM (fun member => use member.1) = members.mapM use :=
      Build.mapM_attach fun member hm => rfl
    exact congrArg (fun build : Build (List TypeUse) => do
      let uses ← build
      Build.record (.union ⟨⟨Naming.ofShape parent name, none⟩, uses, some s.object.loc,
        s.object.metadata⟩)
      return Descriptor.named ⟨Naming.ofShape parent name, none⟩ rules s.object.loc) same

theorem propertiesOf_eq (root : Node) (guards : Guards) (s : ObjectSchema) (parent : String)
    (inherited : List Literal) :
    propertiesOf root guards s parent inherited = (do
      let required := (← s.required) ++ inherited
      match ← s.allOf with
      | some branches => do
        let merged ← branches.mapM fun branch => do
          let key ← branch.guardKey
          let inner ← guards.enter key
          match ← branch.asSchema.resolve root with
          | .object b => propertiesOf root inner b parent required
          | _ => return []
        return merged.flatten
      | none =>
        match ← s.properties with
        | none => return []
        | some index =>
          index.entries.mapM fun entry => do
            let schema ← SchemaOrReference.ofNode entry.2
            let resolved ← schema.resolve root
            let type ← describe root guards schema entry.1.name parent
            let rules ← resolved.rulesWhen root (required.any (·.text == entry.1.name))
            return propertyOf index entry.1.name resolved type rules) := by
  rw [propertiesOf]
  congr 1
  funext own
  refine Build.read_bind fun found hf => ?_
  cases found with
  | some branches =>
    simp only
    congr 2
    funext branch
    congr 1
    funext key
    exact Build.read_bind fun inner hi => rfl
  | none =>
    refine Build.read_bind fun found hf => ?_
    cases found with
    | none => rfl
    | some index =>
      refine Build.mapM_attach fun entry he => ?_
      exact Build.read_bind fun schema hs => rfl

end ServiceModel
