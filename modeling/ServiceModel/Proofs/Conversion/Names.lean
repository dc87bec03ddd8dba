/-
When the names in a service are usable, that is, not empty. An interface is named after a tag or
after the first segment of a path, and nothing but the singular comes between; so it is known which
operations have an interface without a name. A type, an enum or a union is named after a component,
or after its place: it has a name if something in the names of its place is left in camel case, and
then so have all shapes inside it.
-/
import ServiceModel.Proofs.Conversion.Closure
import ServiceModel.Proofs.Naming.Usable
import ServiceModel.Proofs.OpenApi.ComponentPointers

namespace ServiceModel

open Service OpenApi Naming

/-! ## Places -/

/-- The name of a place tells something, or that of its parent does. -/
def TellingPlace (name parent : String) : Prop := Worded parent ∨ Telling name

/-- The schema has a property with a name: its own, or one of its branches, if it has any. -/
inductive HasProperty (root : Node) : ObjectSchema → String → Prop
  | own {s : ObjectSchema} {index : Object} {entry : Key × Node} : s.allOf = .ok none →
      s.properties = .ok (some index) → entry ∈ index.entries → HasProperty root s entry.1.name
  | branch {s b : ObjectSchema} {branches : List (OrReference ObjectSchema)}
      {branch : OrReference ObjectSchema} {name : String} : s.allOf = .ok (some branches) →
      branch ∈ branches → branch.asSchema.resolve root = .ok (.object b) →
      HasProperty root b name → HasProperty root s name

/-- The name of a parent tells something, or the names of all properties inside it do. -/
def TellingParent (root : Node) (s : ObjectSchema) (parent : String) : Prop :=
  Worded parent ∨ ∀ name, HasProperty root s name → Telling name

theorem TellingPlace.worded_ofShape {name parent : String} (h : TellingPlace name parent) :
    Worded (ofShape parent name) :=
  Naming.worded_ofShape.2 (h.imp_right Telling.worded)

theorem TellingPlace.worded_ofEnum {name parent : String} (h : TellingPlace name parent) :
    Worded (ofEnum parent name) :=
  Naming.worded_ofEnum.2 (h.imp_right Telling.singular)

theorem named_of_namesEnum {name : Located String} (h : NamesEnum TellingPlace name) :
    name.value ≠ "" := by
  cases h with
  | place place => exact place.worded_ofEnum.ne_empty
  | component named => exact Pointer.ne_empty_of_schemaName named

/-- What is recorded at places whose names tell something has a name. -/
theorem constructs_named (root : Node) :
    Constructs root TellingPlace (TellingParent root) (fun _ => True) (Entry.Defined (· ≠ ""))
      (fun _ => True) where
  shape place := .inl place.worded_ofShape
  branch split mem object parent :=
    parent.imp_right fun all name has => all name (.branch split mem object has)
  property whole index mem parent := parent.imp_right fun all => all _ (.own whole index mem)
  primitive _ _ := trivial
  loose _ _ := trivial
  component _ _ _ _ := trivial
  recorded _ _ _ := trivial
  renewed _ := trivial
  enum _ _ named := by
    rintro name ⟨⟩
    exact named_of_namesEnum named
  type _ place _ _ := by
    rintro name ⟨⟩
    exact place.worded_ofShape.ne_empty
  union _ place _ _ _ := by
    rintro name ⟨⟩
    exact place.worded_ofShape.ne_empty

/-! ## Descriptions -/

namespace OpenApi

/-- The names inside an operation tell something: that of a body and those of the parameters. -/
structure TellingNames (d : Description) (item : PathItem) (operation : Operation) : Prop where
  body : ∀ source, operation.requestBody = .ok (some source) →
    Telling ((bodyName? operation.object.metadata).getD ⟨defaultBodyName, none⟩).value
  parameter : ∀ sources, (do return (← item.parameters) ++ (← operation.parameters)) =
      (.ok sources : Except Failure _) → ∀ source ∈ sources, ∀ p name,
    source.resolve d.root Parameter.ofNode = .ok p → p.name = .ok name → Telling name.text

/-- The names in a description tell something: for each operation its own name or all names inside
it, and for each component that is an object its own name or those of all its properties. -/
structure Description.TellingNames (d : Description) (sites : List Site) : Prop where
  operation : ∀ s ∈ sites, Worded s.operation.name ∨ OpenApi.TellingNames d s.item s.operation
  component : ∀ name s, d.HoldsComponent name s → name ≠ "" ∧ TellingParent d.root s name

theorem placesOf_telling {d : Description} {item : PathItem} {operation : Operation}
    (h : Worded operation.name ∨ TellingNames d item operation) :
    PlacesOf d TellingPlace item operation where
  body source hs := h.imp_right fun inside => inside.body source hs
  parameter sources hs source hm p name hp hn :=
    h.imp_right fun inside => inside.parameter sources hs source hm p name hp hn
  response _ := .inr telling_response

namespace Description

variable {d : Description} {guards : Guards} {sites : List Site}

/-- All that the passes record has a name. -/
theorem passes_named (hs : SitesOf d sites) (h : d.TellingNames sites) :
    ∀ e ∈ (d.passes guards).journal, e.Defined (· ≠ "") := by
  have described := described_of_constructs (constructs_named d.root) fun {e} he name hn => by
    rw [he] at hn
    cases hn
  have places : ∀ item operation, HoldsOperation d item operation →
      PlacesOf d TellingPlace item operation := by
    intro item operation holds
    obtain ⟨s, hm, rfl, rfl⟩ := site_of_holds hs holds
    exact placesOf_telling (h.operation s hm)
  exact (ensures_passes described places (fun name s holds => (h.component name s holds).2)
    fun _ _ => trivial).1

end Description

/-- An interface without a name is that of an operation that is named after one of the lost
words. -/
theorem Aligned.named {d : Description} {guards : Guards} {sites : List Site}
    {interfaces : List Interface} (h : Aligned d guards sites interfaces) :
    (∀ i ∈ interfaces, i.name.value ≠ "") ↔
      ∀ s ∈ sites, ∀ name, sourceNameOf s.path s.operation = .ok name → name ∉ lostWords := by
  obtain ⟨names, each, same⟩ := h.names
  have all : (∀ i ∈ interfaces, i.name.value ≠ "") ↔ "" ∉ names := by
    rw [← List.mem_eraseDups, ← same]
    simp
  rw [all]
  constructor
  · intro named s hs source hn lost
    obtain ⟨name, hm, hi⟩ := forall₂_mem_left each hs
    rw [Site.interfaceName, hn] at hi
    cases hi
    exact named (singular_eq_empty.2 lost ▸ hm)
  · intro kept hm
    obtain ⟨s, hs, hi⟩ := forall₂_mem_right each hm
    obtain ⟨source, hn, hi⟩ := read_bind_ok hi
    exact kept s hs source hn (singular_eq_empty.1 (Except.ok.inj hi))

end OpenApi

/-! ## Descriptions with telling names and without -/

namespace Sample

/-- A description of an operation with a name, which has an object as a parameter. -/
def telling : String :=
  "\x7b'openapi':'3.0','info':\x7b'title':'T','version':'1'\x7d," ++
    "'paths':\x7b'/fish':\x7b'get':\x7b'operationId':'l','parameters':[\x7b'name':'q'," ++
    "'in':'query','schema':\x7b\x7d\x7d]\x7d\x7d\x7d\x7d"

def tellingOperation : Object where
  entries := [(key "operationId" 77 90, leaf "l" 91 94), (key "parameters" 95 107,
    .array [.object [(key "name" 110 116, leaf "q" 117 120), (key "in" 121 125,
      leaf "query" 126 133), (key "schema" 134 142, .object [] (span 143 145))] (span 109 146)]
      (span 108 147))]
  range := span 76 148

def tellingTree : Node :=
  .object [(key "openapi" 1 10, leaf "3.0" 11 16),
    (key "info" 17 23, .object [(key "title" 25 32, leaf "T" 33 36),
      (key "version" 37 46, leaf "1" 47 50)] (span 24 51)),
    (key "paths" 52 59, .object [(key "/fish" 61 68,
      .object [(key "get" 70 75, tellingOperation.node)] (span 69 149))] (span 60 150))]
    (span 0 151)

theorem treeOf_telling : treeOf telling = .ok tellingTree :=
  treeOf_of_spelled (append_spelled (append_spelled rfl rfl) rfl) (by decide +kernel)
    (by decide +kernel)

theorem converts_telling : ∃ service, (convert options telling).outcome = .ok service :=
  exists_convert treeOf_telling (by cbv)

/-- The description has one operation. -/
theorem sitesOf_telling {d : Description} {sites : List Site}
    (hd : Description.ofNode tellingTree = .ok d) (hs : SitesOf d sites) :
    ∃ s, sites = [s] ∧ s.path = "/fish" ∧ s.operation = ⟨tellingOperation⟩ := by
  cases hd
  obtain ⟨groups, hg, rfl⟩ := hs
  obtain ⟨group, rest, ⟨source, item, hr, hi, here⟩, none, rfl⟩ := List.forall₂_cons_left_iff.1 hg
  cases hr
  cases hi
  obtain ⟨s, more, ⟨path, -, -, read⟩, none', rfl⟩ := List.forall₂_cons_left_iff.1 here
  cases List.forall₂_nil_left_iff.1 none
  cases List.forall₂_nil_left_iff.1 none'
  have same : (.ok (some ⟨tellingOperation⟩) : Except Failure (Option Operation)) =
      .ok (some s.operation) := read
  exact ⟨s, rfl, path, (Option.some.inj (Except.ok.inj same)).symm⟩

/-- A description with an operation that is tagged with an s, and with a property and a component
that are named by signs. -/
def nameless : String :=
  "\x7b'openapi':'3.0','info':\x7b'title':'T','version':'1'\x7d," ++
    "'paths':\x7b'/a':\x7b'get':\x7b'tags':['s']\x7d\x7d\x7d," ++
    "'components':\x7b'schemas':\x7b'_':\x7b'properties':\x7b'-':\x7b'type':'object'" ++
    "\x7d\x7d\x7d\x7d\x7d\x7d"

def namelessTree : Node :=
  .object [(key "openapi" 1 10, leaf "3.0" 11 16),
    (key "info" 17 23, .object [(key "title" 25 32, leaf "T" 33 36),
      (key "version" 37 46, leaf "1" 47 50)] (span 24 51)),
    (key "paths" 52 59, .object [(key "/a" 61 65, .object [(key "get" 67 72,
      .object [(key "tags" 74 80, .array [leaf "s" 82 85] (span 81 86))] (span 73 87))]
      (span 66 88))] (span 60 89)),
    (key "components" 90 102, .object [(key "schemas" 104 113, .object [(key "_" 115 118,
      .object [(key "properties" 120 132, .object [(key "-" 134 137, .object [(key "type" 139 145,
        leaf "object" 146 154)] (span 138 155))] (span 133 156))] (span 119 157))] (span 114 158))]
      (span 103 159))] (span 0 160)

theorem treeOf_nameless : treeOf nameless = .ok namelessTree :=
  treeOf_of_spelled (append_spelled (append_spelled (append_spelled rfl rfl) rfl) rfl)
    (by decide +kernel) (by decide +kernel)

end Sample

/-! ## Conversion -/

/-- Which names in a service that a text is converted into are usable. All interfaces have names
just when no operation is named after one of the lost words. All types, enums and unions have names
if the names in the description tell something. -/
theorem convert_named {options : Options} {text : String} {service : Service}
    (h : (convert options text).outcome = .ok service) :
    ∃ root d sites, treeOf text = .ok root ∧ Description.ofNode root = .ok d ∧ SitesOf d sites ∧
      ((∀ i ∈ service.interfaces, i.name.value ≠ "") ↔
        ∀ s ∈ sites, ∀ name, sourceNameOf s.path s.operation = .ok name → name ∉ lostWords) ∧
      (d.TellingNames sites → "" ∉ service.definedNames) := by
  obtain ⟨root, d, ht, hd, -, yields⟩ := convert_ok h
  obtain ⟨components, hp, types⟩ := yields.passes
  obtain ⟨sites, hs, aligned⟩ := interfacesOf_aligned (Description.passes_ok hp).1
  refine ⟨root, d, sites, ht, hd, hs, aligned.named, fun telling defined => ?_⟩
  rcases yields.mem_definedNames.1 defined with component | ⟨e, he, unnamed⟩
  · obtain ⟨s, holds⟩ := Description.mem_objectComponents.1 component
    exact (telling.component "" s holds).1 rfl
  · exact Description.passes_named hs telling e he "" unnamed rfl

theorem convert_telling_named :
    ∃ service, (convert Sample.options Sample.telling).outcome = .ok service ∧
      (∀ i ∈ service.interfaces, i.name.value ≠ "") ∧ "" ∉ service.definedNames := by
  obtain ⟨service, ok⟩ := Sample.converts_telling
  obtain ⟨root, d, sites, ht, hd, hs, interfaces, defined⟩ := convert_named ok
  cases Sample.treeOf_telling.symm.trans ht
  obtain ⟨s, rfl, path, operation⟩ := Sample.sitesOf_telling hd hs
  refine ⟨service, ok, interfaces.2 ?_, defined ⟨?_, ?_⟩⟩
  · rintro s' hs' name hn
    cases List.mem_singleton.1 hs'
    rw [path, operation] at hn
    have fish : (.ok "fish" : Except Failure String) = .ok name := hn
    cases fish
    decide
  · rintro s' hs'
    cases List.mem_singleton.1 hs'
    rw [operation]
    exact .inl (by decide)
  · rintro name s' ⟨schemas, listed, -⟩
    cases hd
    cases listed

/-- An operation that is tagged with an s belongs to an interface without a name, and a shape that
is named by signs is a type without one. -/
theorem convert_nameless :
    ∃ service, (convert Sample.options Sample.nameless).outcome = .ok service ∧
      service.interfaces.map (·.name.value) = [""] ∧
      service.types.map (·.name.value) = ["_", ""] := by
  have names : (convertTree Sample.options Sample.namelessTree).outcome.toOption.map
      (fun service => (service.interfaces.map (·.name.value), service.types.map (·.name.value))) =
        some ([""], ["_", ""]) := by
    cbv
  rw [convert_eq_convertTree Sample.treeOf_nameless]
  cases ho : (convertTree Sample.options Sample.namelessTree).outcome with
  | error e => rw [ho] at names; cases names
  | ok service =>
    rw [ho] at names
    obtain ⟨interfaces, types⟩ := Prod.mk.inj (Option.some.inj names)
    exact ⟨service, rfl, interfaces, types⟩

end ServiceModel
