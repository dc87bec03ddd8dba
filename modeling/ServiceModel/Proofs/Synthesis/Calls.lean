/-
The calls that the synthesis of types makes. `Makes` lists them: each constructor is one place of
the recursion, with what has been read when the call is made. `step` is one round of the
recursion whose calls are answered from outside; it asks for nothing but the calls in `Makes`,
and answered by the synthesis itself it gives the synthesis. A call made stands at a node
strictly below, or holds one more guard, or is the next stage at the same node, so that a height
bounds how deep the calls nest. What holds of a call as soon as it holds of the calls that it
makes therefore holds of every call.
-/
import ServiceModel.Proofs.Build.Congruence
import ServiceModel.Proofs.Document.Within
import ServiceModel.Synthesis.Describe

namespace ServiceModel

open Service

/-- Guards that `G` relates let computations that `R` relates go on when a key is entered. -/
def Guards.Enters (R : ∀ {α : Type}, Build α → Build α → Prop) (G : Guards → Guards → Prop) :
    Prop :=
  ∀ {α : Type} {g g' : Guards} {key : String} {f f' : Guards → Build α}, G g g' →
    (∀ inner inner', g.enter key = .ok inner → G inner inner' → R (f inner) (f' inner')) →
    R ((liftM (g.enter key) : Build Guards) >>= f) ((liftM (g'.enter key) : Build Guards) >>= f')

/-- A stage of the synthesis, with what it is asked for and the guards that are held. -/
inductive Call where
  | describe (guards : Guards) (schema : SchemaOrReference) (name parent : String)
  | inPlace (guards : Guards) (schema : Schema) (name parent : String)
  | properties (guards : Guards) (schema : ObjectSchema) (parent : String)
      (inherited : List Literal)

namespace Call

/-- What a call is answered with. -/
@[reducible] def Answer : Call → Type
  | describe .. => Descriptor
  | inPlace .. => Descriptor
  | properties .. => List Member

/-- The answer of the synthesis. -/
def run (root : Node) : (call : Call) → Build call.Answer
  | describe guards schema name parent => ServiceModel.describe root guards schema name parent
  | inPlace guards schema name parent => describeInPlace root guards schema name parent
  | properties guards schema parent inherited => propertiesOf root guards schema parent inherited

/-- One round of the synthesis, whose calls are answered by `answer`. -/
def step (root : Node) (answer : (call : Call) → Build call.Answer) :
    (call : Call) → Build call.Answer
  | describe guards (.inline s) name parent => answer (inPlace guards s name parent)
  | describe guards (.reference r) name parent => do
    let pointer ← r.pointer
    let target ← SchemaOrReference.resolve root (.reference r)
    let rules ← target.rules root
    match Pointer.schemaName? pointer with
    | none => return .named ⟨pointer, some (← root.pointerLoc pointer)⟩ rules target.node.loc
    | some component => do
      let typeName : Located String := ⟨component, some (← root.pointerLoc pointer)⟩
      match target with
      | .object _ => return .named typeName rules target.node.loc
      | _ =>
        match ← target.enum? with
        | some (s, values) => do
          Build.record (.enum (s.enumDef typeName values))
          return .named typeName rules target.node.loc
        | none => do
          let inner ← guards.enter pointer
          answer (inPlace inner target name parent)
  | inPlace _ (.string s) name parent => do
    let rules ← (Schema.string s).rules root
    match ← s.enum with
    | some values => do
      let typeName : Located String := ⟨Naming.ofEnum parent name, none⟩
      Build.record (.enum (s.enumDef typeName values))
      return .named typeName rules s.object.loc
    | none => return .primitive (← s.typeName) rules s.default? s.const? s.object.loc
  | inPlace _ (.number s) _ _ => do
    let rules ← (Schema.number s).rules root
    return .primitive (← s.typeName) rules s.default? s.const? s.object.loc
  | inPlace _ (.boolean s) _ _ => do
    let rules ← (Schema.boolean s).rules root
    return .primitive (← s.typeName) rules s.default? s.const? s.object.loc
  | inPlace guards (.array s) name parent => do
    let rules ← (Schema.array s).rules root
    match ← s.items with
    | none => Build.fail (.shape (.noItems s.object.start))
    | some items =>
      return .arrayOf (← answer (describe guards items name parent)) rules s.object.loc
  | inPlace guards (.object s) name parent => do
    let rules ← (Schema.object s).rules root
    let typeName : Located String := ⟨Naming.ofShape parent name, none⟩
    match ← s.oneOf with
    | some members => do
      let uses ← members.mapM fun member => do
        return (← answer (describe guards member.asSchema name parent)).type
      Build.record (.union ⟨typeName, uses, some s.object.loc, s.object.metadata⟩)
    | none => do
      let properties ← answer (properties guards s typeName.value [])
      Build.record (.type ⟨typeName, s.description?.map Literal.locatedText, properties, s.rules,
        some s.object.loc, none⟩)
    return .named typeName rules s.object.loc
  | properties guards s parent inherited => do
    let required := (← s.required) ++ inherited
    match ← s.allOf with
    | some branches => do
      let merged ← branches.mapM fun branch => do
        let key ← branch.guardKey
        let inner ← guards.enter key
        match ← branch.asSchema.resolve root with
        | .object b => answer (properties inner b parent required)
        | _ => return []
      return merged.flatten
    | none =>
      match ← s.properties with
      | none => return []
      | some index =>
        index.entries.mapM fun entry => do
          let schema ← SchemaOrReference.ofNode entry.2
          let resolved ← schema.resolve root
          let type ← answer (describe guards schema entry.1.name parent)
          let rules ← resolved.rulesWhen root (required.any (·.text == entry.1.name))
          return propertyOf index entry.1.name resolved type rules

/-- The synthesis is a round of itself. -/
theorem run_eq_step (root : Node) (call : Call) : call.run root = call.step root (run root) := by
  cases call with
  | describe guards schema name parent =>
    cases schema with
    | inline s => exact describe_inline root guards s name parent
    | reference r => exact describe_reference root guards r name parent
  | inPlace guards schema name parent =>
    cases schema with
    | string s => exact describeInPlace_string root guards s name parent
    | number s => exact describeInPlace_number root guards s name parent
    | boolean s => exact describeInPlace_boolean root guards s name parent
    | array s => exact describeInPlace_array root guards s name parent
    | object s => exact describeInPlace_object root guards s name parent
  | properties guards s parent inherited => exact propertiesOf_eq root guards s parent inherited

/-! ## The calls that a call makes -/

/-- The second call is made by the first one. -/
inductive Makes (root : Node) : Call → Call → Prop
  /-- A schema in place is described in place. -/
  | inPlace {guards : Guards} {s : Schema} {name parent : String} :
      Makes root (describe guards (.inline s) name parent) (inPlace guards s name parent)
  /-- A component that has no type of its own is described at its use, under its guard. -/
  | component {guards inner : Guards} {r : Reference} {target : Schema}
      {pointer component name parent : String} :
      r.pointer = .ok pointer → SchemaOrReference.resolve root (.reference r) = .ok target →
      Pointer.schemaName? pointer = some component → target.enum? = .ok none →
      (∀ s, target ≠ .object s) → guards.enter pointer = .ok inner →
      Makes root (describe guards (.reference r) name parent) (inPlace inner target name parent)
  | items {guards : Guards} {s : ArraySchema} {items : SchemaOrReference} {name parent : String} :
      s.items = .ok (some items) →
      Makes root (inPlace guards (.array s) name parent) (describe guards items name parent)
  | member {guards : Guards} {s : ObjectSchema} {members : List (OrReference ObjectSchema)}
      {m : OrReference ObjectSchema} {name parent : String} :
      s.oneOf = .ok (some members) → m ∈ members →
      Makes root (inPlace guards (.object s) name parent) (describe guards m.asSchema name parent)
  | properties {guards : Guards} {s : ObjectSchema} {name parent : String} :
      s.oneOf = .ok none →
      Makes root (inPlace guards (.object s) name parent)
        (properties guards s (Naming.ofShape parent name) [])
  /-- A branch is gone through under its guard. -/
  | branch {guards inner : Guards} {s b : ObjectSchema} {own inherited : List Literal}
      {branches : List (OrReference ObjectSchema)} {branch : OrReference ObjectSchema}
      {key parent : String} :
      s.required = .ok own → s.allOf = .ok (some branches) → branch ∈ branches →
      branch.guardKey = .ok key → guards.enter key = .ok inner →
      branch.asSchema.resolve root = .ok (.object b) →
      Makes root (properties guards s parent inherited)
        (properties inner b parent (own ++ inherited))
  | property {guards : Guards} {s : ObjectSchema} {index : Object} {entry : Key × Node}
      {schema : SchemaOrReference} {parent : String} {inherited : List Literal} :
      s.allOf = .ok none → s.properties = .ok (some index) → entry ∈ index.entries →
      SchemaOrReference.ofNode entry.2 = .ok schema →
      Makes root (properties guards s parent inherited)
        (describe guards schema entry.1.name parent)

/-! ## Rounds under other guards -/

/-- The guards that are held. -/
def guards : Call → Guards
  | describe guards .. => guards
  | inPlace guards .. => guards
  | properties guards .. => guards

/-- What is done under other guards. -/
def under (f : (call : Call) → Build call.Answer) (guards : Guards) : (call : Call) → Build call.Answer
  | describe _ schema name parent => f (describe guards schema name parent)
  | inPlace _ schema name parent => f (inPlace guards schema name parent)
  | properties _ schema parent inherited => f (properties guards schema parent inherited)

theorem under_guards (f : (call : Call) → Build call.Answer) (call : Call) :
    under f call.guards call = f call := by
  cases call <;> rfl

/-- Two rounds under related guards are related if the calls that are made are answered so. -/
theorem step_related {R : ∀ {α : Type}, Build α → Build α → Prop} {G : Guards → Guards → Prop}
    (c : Build.Congruence R) (enters : Guards.Enters R G) {root : Node}
    {answer answer' : (call : Call) → Build call.Answer} {call : Call} {g : Guards}
    (h : G call.guards g)
    (made : ∀ made, Makes root call made → ∀ g, G made.guards g →
      R (answer made) (under answer' g made)) :
    R (call.step root answer) (under (step root answer') g call) := by
  cases call with
  | describe guards schema name parent =>
    cases schema with
    | inline s => exact made _ .inPlace g h
    | reference r =>
      simp only [under, step]
      refine c.lift_bind fun pointer hp => ?_
      refine c.lift_bind fun target ht => ?_
      refine c.lift_bind fun rules _ => ?_
      cases hn : Pointer.schemaName? pointer with
      | none => exact c.refl _
      | some component =>
        refine c.lift_bind fun loc _ => ?_
        cases target with
        | object s => exact c.refl _
        | _ =>
          refine c.lift_bind fun found hf => ?_
          cases found with
          | some found => exact c.refl _
          | none =>
            -- here the guards are looked at
            refine enters h fun inner inner' hi related => ?_
            exact made _ (.component hp ht hn hf (by rintro _ ⟨⟩) hi) inner' related
  | inPlace guards schema name parent =>
    cases schema with
    -- these hold no schemas, and no guards are looked at
    | string s => exact c.refl _
    | number s => exact c.refl _
    | boolean s => exact c.refl _
    | array s =>
      simp only [under, step]
      refine c.lift_bind fun rules _ => ?_
      refine c.lift_bind fun found hf => ?_
      cases found with
      | none => exact c.refl _
      | some items => exact c.bind (made _ (.items hf) g h) fun item _ => c.refl _
    | object s =>
      simp only [under, step]
      refine c.lift_bind fun rules _ => ?_
      refine c.lift_bind fun found hf => ?_
      cases found with
      | none => exact c.bind (made _ (.properties hf) g h) fun properties _ => c.refl _
      | some members =>
        have uses := c.mapM fun m hm =>
          c.bind (made _ (.member hf hm) g h) fun d _ => c.refl (pure d.type)
        exact c.bind uses fun uses _ => c.refl _
  | properties guards s parent inherited =>
    simp only [under, step]
    refine c.lift_bind fun own ho => ?_
    refine c.lift_bind fun found hf => ?_
    cases found with
    | some branches =>
      refine c.bind (c.mapM fun branch hb => ?_) fun merged _ => c.refl _
      refine c.lift_bind fun key hk => ?_
      -- and here
      refine enters h fun inner inner' hi related => ?_
      refine c.lift_bind fun target ht => ?_
      cases target with
      | object b => exact made _ (.branch ho hf hb hk hi ht) inner' related
      | _ => exact c.refl _
    | none =>
      refine c.lift_bind fun found' hf' => ?_
      cases found' with
      | none => exact c.refl _
      | some index =>
        refine c.mapM fun entry he => ?_
        refine c.lift_bind fun schema hs => ?_
        refine c.lift_bind fun resolved _ => ?_
        exact c.bind (made _ (.property hf hf' he hs) g h) fun type _ => c.refl _

/-- A round asks for the answers of the calls that are made, and for no others. -/
theorem step_congr {root : Node} {answer answer' : (call : Call) → Build call.Answer} {call : Call}
    (h : ∀ made, Makes root call made → answer made = answer' made) :
    call.step root answer = call.step root answer' := by
  have enters : Guards.Enters Eq Eq := by
    rintro α g _ key f f' rfl related
    exact Build.lift_bind_congr fun inner hi => related inner inner hi rfl
  have related : call.step root answer = under (step root answer') call.guards call :=
    step_related Build.eq_congruence enters rfl fun made hm _ same => by
      rw [← same, under_guards]
      exact h made hm
  rw [related, under_guards]

/-! ## Why the calls end -/

/-- The node at which a call stands. -/
def node : Call → Node
  | describe _ schema _ _ => View.node schema
  | inPlace _ schema _ _ => View.node schema
  | properties _ schema _ _ => schema.object.node

/-- How many stages may follow at the same node. -/
def stage : Call → Nat
  | describe .. => 2
  | inPlace .. => 1
  | properties .. => 0

theorem stage_le (call : Call) : call.stage ≤ 2 := by
  cases call <;> simp [stage]

/-- A call that is made keeps the guards and stands strictly below, or keeps the guards and is a
later stage at the same node, or holds one more guard; where it holds one more, it stands below
or anywhere in the document. -/
theorem Makes.descends {root : Node} {call made : Call} (h : Makes root call made) :
    (made.guards = call.guards ∧
      (made.node.Below call.node ∨ made.node = call.node ∧ made.stage < call.stage)) ∨
    ((∃ key, call.guards.enter key = .ok made.guards) ∧
      (made.node.Below call.node ∨ made.node.Within root)) := by
  cases h with
  | inPlace => exact .inl ⟨rfl, .inr ⟨rfl, by simp [stage]⟩⟩
  | @component guards inner r target pointer _ _ _ _ ht _ _ _ hi =>
    -- a reference may lead anywhere, but not without a guard
    refine .inr ⟨⟨pointer, hi⟩, .inr ?_⟩
    obtain ⟨n, ht, h⟩ := read_bind_ok ht
    split at h
    · cases h
      exact (Schema.of_classify (Reference.target_within ht) (by assumption)).within
    · obtain ⟨p, -, h⟩ := read_bind_ok h
      cases h
  | items h => exact .inl ⟨rfl, .inl (ArraySchema.items_below h)⟩
  | member h hm =>
    obtain ⟨n, hn, hr⟩ := ObjectSchema.composition_member h hm
    refine .inl ⟨rfl, .inl ?_⟩
    change (View.node _).Below _
    rw [ObjectSchema.member_node hr]; exact hn
  | properties _ => exact .inl ⟨rfl, .inr ⟨rfl, by simp [stage]⟩⟩
  | @branch guards inner s b _ _ _ branch key _ _ ha hb _ hi ht =>
    -- a branch in place is guarded as well
    refine .inr ⟨⟨key, hi⟩, ?_⟩
    rcases SchemaOrReference.resolve_node ht with same | within
    · obtain ⟨n, hn, hr⟩ := ObjectSchema.composition_member ha hb
      refine .inl ?_
      change b.object.node.Below _
      have : b.object.node = n := same.trans (ObjectSchema.member_node hr)
      rw [this]; exact hn
    · exact .inr within
  | @property _ _ _ entry schema _ _ _ hp he hs =>
    refine .inl ⟨rfl, .inl ?_⟩
    change (View.node schema).Below _
    rw [View.reads_orReference Schema.reads_ofNode _ _ hs]
    exact ObjectSchema.property_below hp he

/-- No nesting of calls that starts with a call is deeper. -/
def height (root : Node) (call : Call) : Nat :=
  call.guards.room * (3 * root.count + 3) + 3 * call.node.count + call.stage

theorem Makes.height_lt {root : Node} {call made : Call} (h : Makes root call made) :
    made.height root < call.height root := by
  have hstage := made.stage_le
  unfold height
  rcases h.descends with ⟨hg, hb | ⟨hn, hs⟩⟩ | ⟨⟨key, hk⟩, hn⟩
  · have := hb.count_lt
    rw [hg]; omega
  · rw [hg, hn]; omega
  · -- one guard outweighs a whole document
    have hr : (made.guards.room + 1) * (3 * root.count + 3) ≤
        call.guards.room * (3 * root.count + 3) :=
      Nat.mul_le_mul_right _ (Guards.room_enter hk)
    rw [Nat.add_mul] at hr
    rcases hn with hb | hw
    · have := hb.count_lt
      omega
    · have := hw.count_le
      omega

/-- What holds of a call as soon as it holds of the calls that it makes holds of every call. -/
theorem induction (root : Node) {motive : Call → Prop}
    (step : ∀ call, (∀ made, Makes root call made → motive made) → motive call) (call : Call) :
    motive call := by
  induction hn : call.height root using Nat.strongRecOn generalizing call with
  | _ n ih => exact step call fun made hm => ih _ (hn ▸ hm.height_lt) made rfl

/-- The rounds of the synthesis that are `depth` deep; calls that nest deeper are answered by
`deeper`. -/
def within (root : Node) (deeper : (call : Call) → Build call.Answer) :
    Nat → (call : Call) → Build call.Answer
  | 0 => deeper
  | depth + 1 => step root (within root deeper depth)

theorem within_eq_run {root : Node} (deeper : (call : Call) → Build call.Answer) {depth : Nat} :
    ∀ {call : Call}, call.height root < depth → within root deeper depth call = call.run root := by
  induction depth with
  | zero => intro call h; exact absurd h (Nat.not_lt_zero _)
  | succ depth ih =>
    intro call h
    rw [within, run_eq_step]
    refine step_congr fun made hm => ih ?_
    have := hm.height_lt
    omega

end Call

end ServiceModel
