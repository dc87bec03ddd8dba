/-
Merging is flattening. The properties of an object schema are those that its leaves declare, in
order: a schema without branches is a leaf, and one with branches has the leaves of its branches.
What is required of a leaf is what the schemas on the way to it require, and nothing that stands
in another branch.
-/
import Mathlib.Data.List.Permutation
import ServiceModel.Proofs.Interfaces.Sites
import ServiceModel.Proofs.Synthesis.Impartial

namespace ServiceModel

open Service

/-! ## Leaves -/

/-- The object schema that a schema is, if it is one. -/
def Schema.asObject? : Schema → Option ObjectSchema
  | .object s => some s
  | _ => none

/-- The object schema that an item among the branches is or refers to, if it is one. -/
def branchAt (root item : Node) : Except Failure (Option ObjectSchema) := do
  if item.isReference then
    let target ← SchemaOrReference.resolve root (.reference (← Reference.ofNode item))
    return target.asObject?
  else return (Schema.classify item).bind Schema.asObject?

/-- The branches of an object schema, in order; an item that is no object schema is left out. -/
def ObjectSchema.branches (root : Node) (s : ObjectSchema) :
    Except Failure (Option (List ObjectSchema)) := do
  return (← s.object.array "allOf" (branchAt root)).map fun found => found.filterMap id

/-- A schema without branches, with the names that are required of it. -/
structure Leaf where
  schema : ObjectSchema
  required : List Literal

mutual

/-- The leaves of a schema of which more names are required than it says. -/
inductive Leaves (root : Node) : ObjectSchema → List Literal → List Leaf → Prop
  | leaf {s : ObjectSchema} {own inherited : List Literal} :
      s.branches root = .ok none → s.required = .ok own →
      Leaves root s inherited [⟨s, own ++ inherited⟩]
  | merged {s : ObjectSchema} {own inherited : List Literal} {branches : List ObjectSchema}
      {leaves : List Leaf} :
      s.branches root = .ok (some branches) → s.required = .ok own →
      BranchLeaves root branches (own ++ inherited) leaves → Leaves root s inherited leaves

/-- The leaves of branches, of each of which the same names are required. -/
inductive BranchLeaves (root : Node) : List ObjectSchema → List Literal → List Leaf → Prop
  | nil {required : List Literal} : BranchLeaves root [] required []
  | cons {b : ObjectSchema} {rest : List ObjectSchema} {required : List Literal}
      {first later : List Leaf} :
      Leaves root b required first → BranchLeaves root rest required later →
      BranchLeaves root (b :: rest) required (first ++ later)

end

/-- The properties that a leaf declares, under a parent. -/
def Leaf.Declares (root : Node) (parent : String) (leaf : Leaf) (part : List Member) : Prop :=
  ∃ guards, (ownPropertiesOf root guards leaf.schema parent leaf.required).outcome = .ok part

/-- None of the rules asks for the value to be present. -/
def Lenient (rules : List Rule) : Prop := ∀ r ∈ rules, r.constraint ≠ .required

/-- A property has the rule that it must be present, as its first, exactly if its name is the text
of one of the values. -/
def Service.Member.Marked (required : List Literal) (m : Member) : Prop :=
  ∃ others : List Rule, Lenient others ∧
    m.type.rules =
      if ∃ l ∈ required, l.text = m.name.value then ⟨.required, none⟩ :: others else others

variable {root : Node} {parent : String}

/-- A leaf declares the same properties however it is reached. -/
theorem Leaf.Declares.unique {leaf : Leaf} {part part' : List Member}
    (h : leaf.Declares root parent part) (h' : leaf.Declares root parent part') : part = part' := by
  obtain ⟨g, h⟩ := h
  obtain ⟨g', h'⟩ := h'
  have same : Call.Same (ownPropertiesOf root g leaf.schema parent leaf.required)
      (ownPropertiesOf root g' leaf.schema parent leaf.required) :=
    Call.ownProperties_related Call.same_congruence fun index entry schema _ _ _ =>
      Call.run_same (.describe g schema entry.1.name parent) g'
  exact (same _ _ h h').1

/-! ## Rules of properties -/

theorem Lenient.nil : Lenient [] := fun _ hr => by cases hr

theorem Lenient.append {rules rules' : List Rule} (h : Lenient rules) (h' : Lenient rules') :
    Lenient (rules ++ rules') := fun r hr => (List.mem_append.1 hr).elim (h r) (h' r)

theorem Lenient.singleton {r : Rule} (h : r.constraint ≠ .required) : Lenient [r] := by
  intro r' hr
  cases List.mem_singleton.1 hr
  exact h

theorem Object.amountRule_lenient (o : Object) (name : String)
    {constraint : Located Number → Constraint} (h : ∀ x, constraint x ≠ .required) :
    Lenient (o.amountRule name constraint) := by
  unfold amountRule
  split
  · exact .singleton (h _)
  · exact .nil

theorem Object.textRule_lenient (o : Object) (name : String)
    {constraint : Located String → Constraint} (h : ∀ x, constraint x ≠ .required) :
    Lenient (o.textRule name constraint) := by
  unfold textRule
  split
  · exact .singleton (h _)
  · exact .nil

theorem StringSchema.rules_lenient (s : StringSchema) {rules : List Rule}
    (h : s.rules = .ok rules) : Lenient rules := by
  obtain ⟨found, -, h⟩ := read_bind_ok h
  cases h
  refine .append (.append (.append (.append ?_ ?_) ?_) ?_) ?_
  · cases found with
    | none => exact .nil
    | some values => exact .singleton nofun
  · exact s.object.textRule_lenient _ nofun
  · exact s.object.amountRule_lenient _ nofun
  · exact s.object.amountRule_lenient _ nofun
  · exact s.object.textRule_lenient _ nofun

theorem NumberSchema.rules_lenient (s : NumberSchema) : Lenient s.rules := by
  refine .append (.append ?_ ?_) ?_
  · exact s.object.amountRule_lenient _ nofun
  · exact s.object.amountRule_lenient _ fun x => by split <;> exact nofun
  · exact s.object.amountRule_lenient _ fun x => by split <;> exact nofun

theorem ArraySchema.rules_lenient (s : ArraySchema) : Lenient s.rules := by
  refine .append (.append ?_ ?_) ?_
  · exact s.object.amountRule_lenient _ nofun
  · exact s.object.amountRule_lenient _ nofun
  · split
    · exact .singleton nofun
    · exact .nil

theorem Schema.ownRules_lenient {s : Schema} {rules : List Rule} (h : s.ownRules = .ok rules) :
    Lenient rules := by
  cases s with
  | string s => exact s.rules_lenient h
  | number s =>
    cases h
    exact s.rules_lenient
  | array s =>
    cases h
    exact s.rules_lenient
  | _ =>
    cases h
    exact .nil

/-- No schema asks by itself for its value to be present. -/
theorem Schema.rules_lenient {s : Schema} {rules : List Rule} (h : s.rules root = .ok rules) :
    Lenient rules := by
  obtain ⟨own, ho, h⟩ := read_bind_ok h
  obtain ⟨items, hi, h⟩ := read_bind_ok h
  cases h
  refine .append (ownRules_lenient ho) ?_
  cases s with
  | array a =>
    obtain ⟨found, hf, hi⟩ := read_bind_ok hi
    cases found with
    | none =>
      cases hi
      exact .nil
    | some source =>
      obtain ⟨resolved, -, hi⟩ := read_bind_ok hi
      exact ownRules_lenient hi
  | _ =>
    cases hi
    exact .nil

theorem ownProperties_marked {guards : Guards} {s : ObjectSchema} {required : List Literal}
    {part : List Member}
    (h : (ownPropertiesOf root guards s parent required).outcome = .ok part) :
    ∀ m ∈ part, m.Marked required := by
  intro m hm
  obtain ⟨found, -, h⟩ := Build.lift_bind_ok h
  cases found with
  | none =>
    cases Build.pure_ok h
    cases hm
  | some index =>
    obtain ⟨entry, -, h⟩ := forall₂_mem_right (Build.mapM_forall₂ h) hm
    obtain ⟨schema, -, h⟩ := Build.lift_bind_ok h
    obtain ⟨resolved, -, h⟩ := Build.lift_bind_ok h
    obtain ⟨type, -, h, -⟩ := Build.bind_ok h
    obtain ⟨rules, hr, h⟩ := Build.lift_bind_ok h
    cases Build.pure_ok h
    obtain ⟨others, ho, hr⟩ := read_bind_ok hr
    cases hr
    refine ⟨others, Schema.rules_lenient ho, ?_⟩
    show (if required.any (·.text == entry.1.name) then _ else _) =
      if ∃ l ∈ required, l.text = entry.1.name then _ else _
    simp only [List.any_eq_true, beq_iff_eq]

/-! ## Merging -/

theorem branchAt_of_left_out {item : Node} (h : ObjectSchema.member item = .ok none) :
    branchAt root item = .ok none := by
  unfold ObjectSchema.member at h
  unfold branchAt
  split at h
  · obtain ⟨r, -, h⟩ := read_bind_ok h
    cases h
  · rename_i plain
    rw [if_neg plain]
    split at h
    · cases h
    · rename_i other
      cases hc : Schema.classify item with
      | none => rfl
      | some t =>
        cases t with
        | object s => exact absurd hc (other s)
        | _ => rfl

theorem branchAt_of_member {item : Node} {m : OrReference ObjectSchema} {t : Schema}
    (h : ObjectSchema.member item = .ok (some m)) (ht : m.asSchema.resolve root = .ok t) :
    branchAt root item = .ok t.asObject? := by
  unfold ObjectSchema.member at h
  unfold branchAt
  split at h
  · rename_i reference
    obtain ⟨r, hr, h⟩ := read_bind_ok h
    cases h
    rw [if_pos reference, hr]
    exact read_bind_of_ok ht _
  · rename_i plain
    rw [if_neg plain]
    split at h
    · rename_i s hs
      cases h
      cases ht
      rw [hs]
      rfl
    · cases h

/-- Where all members lead to schemas, the branches are those of them that are objects. -/
theorem branchAt_mapM {items : List Node} : ∀ {found : List (Option (OrReference ObjectSchema))}
    {targets : List Schema}, items.mapM ObjectSchema.member = .ok found →
    List.Forall₂ (fun m t => m.asSchema.resolve root = .ok t) (found.filterMap id) targets →
    ∃ branches, items.mapM (branchAt root) = .ok branches ∧
      branches.filterMap id = targets.filterMap Schema.asObject? := by
  induction items with
  | nil =>
    intro found targets hf ht
    rw [List.mapM_nil] at hf
    cases hf
    cases ht
    exact ⟨[], rfl, rfl⟩
  | cons item rest ih =>
    intro found targets hf ht
    rw [List.mapM_cons] at hf
    obtain ⟨m?, hm, hf⟩ := read_bind_ok hf
    obtain ⟨found, hr, hf⟩ := read_bind_ok hf
    cases hf
    cases m? with
    | none =>
      obtain ⟨branches, hb, same⟩ := ih hr ht
      refine ⟨none :: branches, ?_, same⟩
      rw [List.mapM_cons, branchAt_of_left_out hm, hb]
      rfl
    | some m =>
      cases ht with
      | @cons _ t _ ts hm' hts =>
        obtain ⟨branches, hb, same⟩ := ih hr hts
        refine ⟨t.asObject? :: branches, ?_, ?_⟩
        · rw [List.mapM_cons, branchAt_of_member hm hm', hb]
          rfl
        · cases ht : t.asObject? with
          | none => rw [List.filterMap_cons_none rfl, List.filterMap_cons_none ht, same]
          | some b =>
            rw [List.filterMap_cons_some (f := id) rfl, List.filterMap_cons_some ht, same]

theorem branches_of_allOf {s : ObjectSchema} {members : List (OrReference ObjectSchema)}
    (h : s.allOf = .ok (some members)) {targets : List Schema}
    (ht : List.Forall₂ (fun m t => m.asSchema.resolve root = .ok t) members targets) :
    s.branches root = .ok (some (targets.filterMap Schema.asObject?)) := by
  obtain ⟨listed, hl, h⟩ := read_bind_ok h
  cases listed with
  | none => cases h
  | some found =>
    cases h
    obtain ⟨items, range, hv, hm⟩ := Object.array_items hl
    obtain ⟨branches, hb, same⟩ := branchAt_mapM hm ht
    rw [ObjectSchema.branches, Object.array_of_items hv hb, ← same]
    rfl

theorem branches_of_no_allOf {s : ObjectSchema} (h : s.allOf = .ok none) :
    s.branches root = .ok none := by
  obtain ⟨listed, hl, h⟩ := read_bind_ok h
  cases listed with
  | some found => cases h
  | none =>
    rw [ObjectSchema.branches, Object.array_of_absent (Object.absent_of_array hl)]
    rfl

/-- The members are those that the leaves of the schema declare, leaf by leaf. -/
def Flattens (root : Node) (parent : String) (s : ObjectSchema) (inherited : List Literal)
    (members : List Member) : Prop :=
  ∃ leaves parts, (∀ leaves', Leaves root s inherited leaves' ↔ leaves' = leaves) ∧
    List.Forall₂ (Leaf.Declares root parent) leaves parts ∧ members = parts.flatten

theorem flattens_leaf {s : ObjectSchema} {own inherited : List Literal} {g : Guards}
    {members : List Member} (hb : s.branches root = .ok none) (ho : s.required = .ok own)
    (h : (ownPropertiesOf root g s parent (own ++ inherited)).outcome = .ok members) :
    Flattens root parent s inherited members := by
  refine ⟨[⟨s, own ++ inherited⟩], [members], fun leaves' => ⟨fun h' => ?_, ?_⟩,
    .cons ⟨g, h⟩ .nil, (List.flatten_singleton ..).symm⟩
  · cases h' with
    | leaf _ ho' =>
      cases ho.symm.trans ho'
      rfl
    | merged hb' _ _ => cases hb.symm.trans hb'
  · rintro rfl
    exact .leaf hb ho

theorem flattens_branches {branches : List ObjectSchema} {required : List Literal}
    {groups : List (List Member)}
    (h : List.Forall₂ (fun b ms => Flattens root parent b required ms) branches groups) :
    ∃ leaves parts, (∀ leaves', BranchLeaves root branches required leaves' ↔ leaves' = leaves) ∧
      List.Forall₂ (Leaf.Declares root parent) leaves parts ∧ groups.flatten = parts.flatten := by
  induction h with
  | nil =>
    refine ⟨[], [], fun leaves' => ⟨fun h' => ?_, ?_⟩, .nil, rfl⟩
    · cases h'
      rfl
    · rintro rfl
      exact .nil
  | cons head _ ih =>
    obtain ⟨first, part, only, declared, same⟩ := head
    obtain ⟨later, parts, only', declared', same'⟩ := ih
    refine ⟨first ++ later, part ++ parts, fun leaves' => ⟨fun h' => ?_, ?_⟩,
      List.rel_append declared declared', ?_⟩
    · cases h' with
      | cons hl hls => rw [(only _).1 hl, (only' _).1 hls]
    · rintro rfl
      exact .cons ((only _).2 rfl) ((only' _).2 rfl)
    · rw [List.flatten_cons, List.flatten_append, same, same']

theorem flattens_merged {s : ObjectSchema} {own inherited : List Literal}
    {branches : List ObjectSchema} {groups : List (List Member)}
    (hb : s.branches root = .ok (some branches)) (ho : s.required = .ok own)
    (h : List.Forall₂ (fun b ms => Flattens root parent b (own ++ inherited) ms) branches groups) :
    Flattens root parent s inherited groups.flatten := by
  obtain ⟨leaves, parts, only, declared, same⟩ := flattens_branches h
  refine ⟨leaves, parts, fun leaves' => ⟨fun h' => ?_, ?_⟩, declared, same⟩
  · cases h' with
    | leaf hb' _ => cases hb.symm.trans hb'
    | merged hb' ho' hl =>
      cases hb.symm.trans hb'
      cases ho.symm.trans ho'
      exact (only _).1 hl
  · rintro rfl
    exact .merged hb ho ((only _).2 rfl)

/-- Members of a composition that are gone through lead to schemas. What they give together is what
those of them that are objects give. -/
theorem flattens_members {required : List Literal} {members : List (OrReference ObjectSchema)}
    {merged : List (List Member)}
    (h : List.Forall₂ (fun m ms => ∃ t, m.asSchema.resolve root = .ok t ∧
      ((∃ b, t = .object b ∧ Flattens root parent b required ms) ∨ t.asObject? = none ∧ ms = []))
      members merged) :
    ∃ targets groups, List.Forall₂ (fun m t => m.asSchema.resolve root = .ok t) members targets ∧
      List.Forall₂ (fun b ms => Flattens root parent b required ms)
        (targets.filterMap Schema.asObject?) groups ∧
      merged.flatten = groups.flatten := by
  induction h with
  | nil => exact ⟨[], [], .nil, .nil, rfl⟩
  | @cons _ ms _ _ head _ ih =>
    obtain ⟨t, ht, given⟩ := head
    obtain ⟨targets, groups, hts, hg, same⟩ := ih
    rcases given with ⟨b, rfl, hb⟩ | ⟨other, rfl⟩
    · refine ⟨.object b :: targets, ms :: groups, .cons ht hts, .cons hb hg, ?_⟩
      rw [List.flatten_cons, List.flatten_cons, same]
    · refine ⟨t :: targets, groups, .cons ht hts, ?_, ?_⟩
      · rwa [List.filterMap_cons_none other]
      · rw [List.flatten_cons, List.nil_append, same]

/-- The properties of an object schema are those that its leaves declare. -/
theorem propertiesOf_flat {g : Guards} {s : ObjectSchema} {inherited : List Literal}
    {members : List Member}
    (h : (propertiesOf root g s parent inherited).outcome = .ok members) :
    Flattens root parent s inherited members := by
  -- the branches are calls that this one makes
  let flat : Call → Prop
    | .properties g s parent inherited => ∀ members,
      (propertiesOf root g s parent inherited).outcome = .ok members →
        Flattens root parent s inherited members
    | _ => True
  suffices all : ∀ call, flat call from all (.properties g s parent inherited) members h
  refine Call.induction root fun call ih => ?_
  cases call with
  | describe => trivial
  | inPlace => trivial
  | properties g s parent inherited =>
    intro members h
    rw [propertiesOf_eq_own] at h
    obtain ⟨own, ho, h⟩ := Build.lift_bind_ok h
    obtain ⟨found, hf, h⟩ := Build.lift_bind_ok h
    cases found with
    | none => exact flattens_leaf (branches_of_no_allOf hf) ho h
    | some branches =>
      obtain ⟨merged, hm, h, -⟩ := Build.bind_ok h
      cases Build.pure_ok h
      have given := (List.forall₂_and_left _ _).2 ⟨fun _ hb => hb, Build.mapM_forall₂ hm⟩
      obtain ⟨targets, groups, ht, hg, same⟩ := flattens_members (given.imp fun m ms hb => by
        obtain ⟨hb, h⟩ := hb
        obtain ⟨key, hk, h⟩ := Build.lift_bind_ok h
        obtain ⟨inner, hi, h⟩ := Build.lift_bind_ok h
        obtain ⟨t, ht, h⟩ := Build.lift_bind_ok h
        refine ⟨t, ht, ?_⟩
        cases t with
        | object b => exact .inl ⟨b, rfl, ih _ (.branch ho hf hb hk hi ht) ms h⟩
        | _ =>
          cases Build.pure_ok h
          exact .inr ⟨rfl, rfl⟩)
      rw [same]
      exact flattens_merged (branches_of_allOf hf ht) ho hg

theorem declares_marked {leaves : List Leaf} {parts : List (List Member)}
    (h : List.Forall₂ (Leaf.Declares root parent) leaves parts) :
    List.Forall₂ (fun leaf part => (∀ part', leaf.Declares root parent part' ↔ part' = part) ∧
      ∀ m ∈ part, m.Marked leaf.required) leaves parts := by
  refine h.imp fun leaf part declared => ⟨fun part' => ⟨fun h' => h'.unique declared, ?_⟩, ?_⟩
  · rintro rfl
    exact declared
  · obtain ⟨g, ho⟩ := declared
    exact ownProperties_marked ho

/-- Where an object schema has properties, it has leaves, and only these. Its properties are what
the leaves declare under the same parent, one after the other, and each of them has to be present
exactly if its leaf requires its name. -/
theorem properties_of_leaves {g : Guards} {s : ObjectSchema} {inherited : List Literal}
    {members : List Member}
    (h : (propertiesOf root g s parent inherited).outcome = .ok members) :
    ∃ leaves parts, (∀ leaves', Leaves root s inherited leaves' ↔ leaves' = leaves) ∧
      List.Forall₂ (fun leaf part => (∀ part', leaf.Declares root parent part' ↔ part' = part) ∧
        ∀ m ∈ part, m.Marked leaf.required) leaves parts ∧
      members = parts.flatten := by
  obtain ⟨leaves, parts, only, declared, same⟩ := propertiesOf_flat h
  exact ⟨leaves, parts, only, declares_marked declared, same⟩

namespace Sample

/-- An object without spans. -/
def bareObject (entries : List (String × Node)) : Object :=
  ⟨entries.map fun entry => (⟨entry.1, default⟩, entry.2), default⟩

def bareText (text : String) : Node := .literal ⟨.text text, default⟩

/-- A property of the type `string`. -/
def stringProperty (name : String) : String × Node :=
  (name, (bareObject [("type", bareText "string")]).node)

/-- A component that requires its only property. -/
def component : Object :=
  bareObject [("required", .array [bareText "b"] default),
    ("properties", (bareObject [stringProperty "b"]).node)]

def components : Node :=
  (bareObject [("components", (bareObject [("schemas",
    (bareObject [("B", component.node)]).node)]).node)]).node

/-- A branch with two properties, of which one is required further up, a branch that is no object,
and a reference to a component; a property that stands beside the branches. -/
def composed : ObjectSchema :=
  ⟨bareObject [("required", .array [bareText "a"] default),
    ("allOf", .array [
      (bareObject [("properties", (bareObject [stringProperty "a", stringProperty "b"]).node)]).node,
      (bareObject [("type", bareText "string")]).node,
      (bareObject [("$ref", bareText "#/components/schemas/B")]).node] default),
    ("properties", (bareObject [stringProperty "c"]).node)]⟩

end Sample

theorem properties_of_leaves_composed :
    ∃ members, (propertiesOf Sample.components (.none 1) Sample.composed "P" []).outcome =
        .ok members ∧
      members.map (fun m => (m.name.value, m.type.rules.map Rule.constraint)) =
        [("a", [.required]), ("b", []), ("b", [.required])] ∧
      ∃ leaves parts,
        (∀ leaves', Leaves Sample.components Sample.composed [] leaves' ↔ leaves' = leaves) ∧
        List.Forall₂ (fun leaf part =>
          (∀ part', leaf.Declares Sample.components "P" part' ↔ part' = part) ∧
            ∀ m ∈ part, m.Marked leaf.required) leaves parts ∧
        members = parts.flatten := by
  have names : (propertiesOf Sample.components (.none 1) Sample.composed "P" []).outcome.toOption.map
      (List.map fun m => (m.name.value, m.type.rules.map Rule.constraint)) =
      some [("a", [.required]), ("b", []), ("b", [.required])] := by cbv
  cases h : (propertiesOf Sample.components (.none 1) Sample.composed "P" []).outcome with
  | error e => rw [h] at names; cases names
  | ok members =>
    rw [h] at names
    exact ⟨members, rfl, Option.some.inj names, properties_of_leaves h⟩

end ServiceModel
