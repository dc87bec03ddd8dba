/-
What is lost when one definition is kept for every name. The definitions that are kept by name are
each made of one schema of the document, and schemas with the same content make the same definition
under the same name. A definition goes before another one therefore only where their schemas have
different content: names of shapes without names of their own may meet, and the last one stays.
-/
import ServiceModel.Proofs.Conversion.Closure
import ServiceModel.Proofs.Synthesis.Origins

namespace ServiceModel

open Service OpenApi

/-! ## Collections -/

/-- Collections of definitions that are made of the schemas of a document. Those of one name that
are made of schemas with the same content are the same without their spans. -/
structure Collected (root : Node) (components types : List TypeDef) (enums : List EnumDef)
    (unions : List UnionDef) : Prop where
  distinct : (components.map (·.name.value)).Nodup
  component : ∀ t ∈ components, ∃ s, t.MadeOf root s ∧ t.metadata = s.object.metadata
  inPlace : ∀ t ∈ types, ∃ s, t.MadeOf root s ∧ t.metadata = none
  enum : ∀ e ∈ enums, ∃ s, e.MadeOf root s
  union : ∀ u ∈ unions, ∃ s name parent, u.MadeOf root s name parent
  /-- A component may have metadata that a type in place has not. -/
  sameType : ∀ t ∈ components ++ types, ∀ t' ∈ components ++ types,
    t.name.value = t'.name.value → ∀ s s', t.MadeOf root s → t'.MadeOf root s' →
      s.object.node.bare = s'.object.node.bare → t.content = t'.content
  sameInPlace : ∀ t ∈ types, ∀ t' ∈ types,
    t.name.value = t'.name.value → ∀ s s', t.MadeOf root s → t'.MadeOf root s' →
      s.object.node.bare = s'.object.node.bare → t.erased = t'.erased
  sameEnum : ∀ e ∈ enums, ∀ e' ∈ enums,
    e.name.value = e'.name.value → ∀ s s', e.MadeOf root s → e'.MadeOf root s' →
      s.object.node.bare = s'.object.node.bare → e.erased = e'.erased
  /-- The alternatives of a union are named after its place. -/
  sameUnion : ∀ u ∈ unions, ∀ u' ∈ unions, ∀ s s' name parent, u.MadeOf root s name parent →
    u'.MadeOf root s' name parent → s.object.node.bare = s'.object.node.bare →
      u.erased = u'.erased

namespace OpenApi.Description

variable {d : Description} {guards : Guards}

theorem described_made (root : Node) :
    Described root (fun _ _ => True) (fun _ _ => True) (fun _ => True) (Entry.Made root)
      (fun _ => True) :=
  described_of_constructs (constructs_made root) fun {e} he => by
    cases e with
    | type _ => cases he
    | enum _ => cases he
    | union _ => cases he
    | _ => trivial

theorem within_componentSchemas {schemas : Object} (h : d.componentSchemas = .ok (some schemas)) :
    schemas.node.Within d.root := by
  obtain ⟨components, hc, h⟩ := read_bind_ok h
  cases components with
  | none => cases h
  | some components =>
    have below := View.child_below View.reads_components hc
    exact (View.index_below h).within.trans below.within

theorem within_objectComponent {schemas : Object} (hs : schemas.node.Within d.root) {name : String}
    {s : ObjectSchema} (h : d.objectComponent? schemas name = some s) :
    s.object.node.Within d.root := by
  unfold objectComponent? at h
  split at h
  · rename_i source hr
    split at h
    · rename_i s' ht
      cases h
      exact (SchemaOrReference.of_resolve (SchemaOrReference.of_child hs hr) ht).within
    · cases h
  · cases h

/-- The type of a component is made of the schema that the component is or refers to. -/
theorem IsComponent.madeOf {schemas : Object} {s : ObjectSchema} {t : TypeDef}
    (h : d.IsComponent guards schemas s t) : t.MadeOf d.root s := by
  obtain ⟨inner, -, properties⟩ := h.properties
  exact {
    within := within_objectComponent (within_componentSchemas h.listed) h.object
    description := h.description
    properties := ⟨inner, properties⟩
    rules := h.rules }

/-- What the passes come to and record is made of schemas of the document. -/
theorem collected_passes {interfaces : List Interface} {components : List TypeDef}
    (h : (d.passes guards).outcome = .ok (interfaces, components)) :
    Collected d.root components ((d.passes guards).journal.filterMap Entry.type?)
      ((d.passes guards).journal.filterMap Entry.enum?)
      ((d.passes guards).journal.filterMap Entry.union?) := by
  have ensured : Build.Ensures (fun _ => True) (Entry.Made d.root) _ (d.passes guards) :=
    ensures_passes (described_made d.root) (fun item operation _ =>
      placesOf_anywhere item operation) fun _ _ _ => trivial
  have records := (ensured fun _ _ => trivial).1
  obtain ⟨names, made⟩ := componentTypes_ok (passes_ok h).2
  have inPlace : ∀ t ∈ (d.passes guards).journal.filterMap Entry.type?,
      ∃ s, t.MadeOf d.root s ∧ t.metadata = none := by
    intro t ht
    obtain ⟨e, he, hte⟩ := List.mem_filterMap.1 ht
    cases e with
    | type t' =>
      cases hte
      obtain ⟨plain, s, made⟩ := records _ he
      exact ⟨s, made, plain⟩
    | _ => cases hte
  constructor
  case distinct =>
    rw [names]
    exact nodup_objectComponents d
  case component =>
    intro t ht
    obtain ⟨schemas, s, component⟩ := made t ht
    exact ⟨s, component.madeOf, component.metadata⟩
  case inPlace => exact inPlace
  case enum =>
    intro x hx
    obtain ⟨e, he, hxe⟩ := List.mem_filterMap.1 hx
    cases e with
    | enum e' => cases hxe; exact records _ he
    | _ => cases hxe
  case union =>
    intro u hu
    obtain ⟨e, he, hue⟩ := List.mem_filterMap.1 hu
    cases e with
    | union u' => cases hue; exact records _ he
    | _ => cases hue
  case sameType => exact fun t _ t' _ name s s' h h' bare => h.same h' bare name
  case sameInPlace =>
    intro t ht t' ht' name s s' h h' bare
    obtain ⟨-, -, plain⟩ := inPlace t ht
    obtain ⟨-, -, plain'⟩ := inPlace t' ht'
    rw [← TypeDef.content_of_plain plain, ← TypeDef.content_of_plain plain']
    exact h.same h' bare name
  case sameEnum => exact fun e _ e' _ name s s' h h' bare => h.same h' bare name
  case sameUnion => exact fun u _ u' _ s s' name parent h h' bare => h.same h' bare

end OpenApi.Description

/-! ## Alternatives of one name -/

namespace Sample

/-- A description with a property that has two alternatives, objects with different properties. -/
def alternatives : String :=
  "\x7b'openapi':'3.0','info':\x7b'title':'T','version':'1'\x7d,'paths':\x7b\x7d," ++
    "'components':\x7b'schemas':\x7b'P':\x7b'properties':\x7b'q':\x7b'oneOf':[" ++
    "\x7b'properties':\x7b'a':\x7b'type':'string'\x7d\x7d\x7d," ++
    "\x7b'properties':\x7b'b':\x7b'type':'string'\x7d\x7d\x7d]\x7d\x7d\x7d\x7d\x7d\x7d"

/-- An object with one property, a text. -/
def alternative (name : String) (start : Nat) : Node :=
  .object [(key "properties" (start + 1) (start + 13), .object [(key name (start + 15) (start + 18),
    .object [(key "type" (start + 20) (start + 26), leaf "string" (start + 27) (start + 35))]
      (span (start + 19) (start + 36)))] (span (start + 14) (start + 37)))]
    (span start (start + 38))

def alternativesTree : Node :=
  .object [(key "openapi" 1 10, leaf "3.0" 11 16),
    (key "info" 17 23, .object [(key "title" 25 32, leaf "T" 33 36),
      (key "version" 37 46, leaf "1" 47 50)] (span 24 51)),
    (key "paths" 52 59, .object [] (span 60 62)),
    (key "components" 63 75, .object [(key "schemas" 77 86, .object [(key "P" 88 91,
      .object [(key "properties" 93 105, .object [(key "q" 107 110, .object [(key "oneOf" 112 119,
        .array [alternative "a" 121, alternative "b" 160] (span 120 199))] (span 111 200))]
        (span 106 201))] (span 92 202))] (span 87 203))] (span 76 204))]
    (span 0 205)

theorem treeOf_alternatives : treeOf alternatives = .ok alternativesTree :=
  treeOf_of_spelled (append_spelled (append_spelled (append_spelled rfl rfl) rfl) rfl)
    (by decide +kernel) (by decide +kernel)

/-- The name of a type, with those of its properties. -/
def memberNames (t : TypeDef) : String × List String :=
  (t.name.value, t.properties.map (·.name.value))

theorem memberNames_erased (t : TypeDef) : memberNames t.erased = memberNames t := by
  rw [memberNames, memberNames, TypeDef.erased, List.map_map]
  rfl

/-- The types that are recorded, and those that are kept. -/
theorem memberNames_alternatives :
    (((convertTree options alternativesTree).journal.filterMap Entry.type?).map memberNames,
      (convertTree options alternativesTree).outcome.toOption.map (·.types.map memberNames)) =
        ([("pQ", ["a"]), ("pQ", ["b"])], some [("P", ["q"]), ("pQ", ["b"])]) := by
  cbv

theorem recorded_alternatives :
    ((convertTree options alternativesTree).journal.filterMap Entry.type?).map memberNames =
      [("pQ", ["a"]), ("pQ", ["b"])] :=
  congrArg Prod.fst memberNames_alternatives

theorem kept_alternatives :
    (convertTree options alternativesTree).outcome.toOption.map (·.types.map memberNames) =
      some [("P", ["q"]), ("pQ", ["b"])] :=
  congrArg Prod.snd memberNames_alternatives

theorem converts_alternatives : ∃ service, (convert options alternatives).outcome = .ok service := by
  obtain ⟨service, ok, -⟩ := read_map_ok kept_alternatives
  rw [convert_eq_convertTree treeOf_alternatives]
  exact ⟨service, ok⟩

end Sample

/-! ## Conversion -/

/-- The definitions that are kept by name, when a text is converted, are each made of a schema of
the text. Components have different names, and all other definitions of one name are the same
without their spans, and but for the metadata of a component, if they are made of schemas with the
same content. -/
theorem convert_folds {options : Options} {text : String} {service : Service}
    (h : (convert options text).outcome = .ok service) :
    ∃ root components, treeOf text = .ok root ∧
      service.types =
        foldTypes (components ++ (convert options text).journal.filterMap Entry.type?) ∧
      service.enums = foldEnums ((convert options text).journal.filterMap Entry.enum?) ∧
      service.unions = foldUnions ((convert options text).journal.filterMap Entry.union?) ∧
      Collected root components ((convert options text).journal.filterMap Entry.type?)
        ((convert options text).journal.filterMap Entry.enum?)
        ((convert options text).journal.filterMap Entry.union?) := by
  obtain ⟨root, d, ht, hd, rfl, yields⟩ := convert_ok h
  obtain ⟨components, hp, types⟩ := yields.passes
  have journal : (convert options text).journal = (d.passes (.none options.limit)).journal := by
    rw [convert_journal h ht hd, Description.passes_journal hp]
  rw [journal]
  exact ⟨d.root, components, ht, types, yields.enums, yields.unions,
    Description.collected_passes hp⟩

theorem convert_alternatives_folds :
    ∃ service, (convert Sample.options Sample.alternatives).outcome = .ok service ∧
      ∃ root components, treeOf Sample.alternatives = .ok root ∧
        service.types = foldTypes
          (components ++ (convert Sample.options Sample.alternatives).journal.filterMap Entry.type?) ∧
        service.enums =
          foldEnums ((convert Sample.options Sample.alternatives).journal.filterMap Entry.enum?) ∧
        service.unions =
          foldUnions ((convert Sample.options Sample.alternatives).journal.filterMap Entry.union?) ∧
        Collected root components
          ((convert Sample.options Sample.alternatives).journal.filterMap Entry.type?)
          ((convert Sample.options Sample.alternatives).journal.filterMap Entry.enum?)
          ((convert Sample.options Sample.alternatives).journal.filterMap Entry.union?) := by
  obtain ⟨service, ok⟩ := Sample.converts_alternatives
  exact ⟨service, ok, convert_folds ok⟩

/-- Two alternatives of one property are recorded under one name, with different properties, and
the first of them is lost. -/
theorem convert_alternatives_collide :
    ∃ service t t', (convert Sample.options Sample.alternatives).outcome = .ok service ∧
      (convert Sample.options Sample.alternatives).journal.filterMap Entry.type? = [t, t'] ∧
      t.name.value = t'.name.value ∧ t.erased ≠ t'.erased ∧
      ∀ kept ∈ service.types, kept.erased ≠ t.erased := by
  rw [convert_eq_convertTree Sample.treeOf_alternatives]
  have recorded := Sample.recorded_alternatives
  have kept := Sample.kept_alternatives
  cases ho : (convertTree Sample.options Sample.alternativesTree).outcome with
  | error e => rw [ho] at kept; cases kept
  | ok service =>
    rw [ho] at kept
    have listed : service.types.map Sample.memberNames = [("P", ["q"]), ("pQ", ["b"])] :=
      Option.some.inj kept
    obtain ⟨t, rest, same, first, recorded⟩ := List.map_eq_cons_iff.1 recorded
    obtain ⟨t', rest, rfl, second, recorded⟩ := List.map_eq_cons_iff.1 recorded
    cases List.map_eq_nil_iff.1 recorded
    -- a type that is `t` without its spans has the names of `t`
    have names : ∀ k : TypeDef, k.erased = t.erased → Sample.memberNames k = ("pQ", ["a"]) := by
      intro k h
      rw [← Sample.memberNames_erased, h, Sample.memberNames_erased, first]
    refine ⟨service, t, t', rfl, same, ?_, ?_, ?_⟩
    · exact (congrArg Prod.fst first).trans (congrArg Prod.fst second).symm
    · intro h
      exact absurd (second.symm.trans (names t' h.symm)) (by decide)
    · intro k hk h
      have mem := List.mem_map_of_mem (f := Sample.memberNames) hk
      rw [names k h, listed] at mem
      exact absurd mem (by decide)

end ServiceModel
