/-
The types of a service. First come the components that are objects, each once and in document
order, and then the types without names of their own whose names are new, in the order in which
they are first recorded. Under each name stands the last type that was recorded with it, or, if
none was, the type of the component.
-/
import ServiceModel.Proofs.Conversion.Outcome
import ServiceModel.Proofs.Interfaces.Sites
import ServiceModel.Proofs.Service.Fold

namespace ServiceModel

open Service

namespace OpenApi.Description

variable {d : Description} {guards : Guards} {schemas : Object}

/-! ## Components that are objects -/

/-- The schemas among the components. -/
def componentSchemas (d : Description) : Except Failure (Option Object) := do
  match ← d.components with
  | none => return none
  | some components => components.schemas

/-- The object schema that a component is or refers to, if it is or refers to one. -/
def objectComponent? (d : Description) (schemas : Object) (name : String) : Option ObjectSchema :=
  match schemas.readEntry name SchemaOrReference.ofNode with
  | .ok (some source) =>
    match source.resolve d.root with
    | .ok (.object s) => some s
    | _ => none
  | _ => none

/-- The names of the components that are objects, each once, in document order. -/
def objectComponents (d : Description) : List String :=
  match d.componentSchemas with
  | .ok (some schemas) =>
    schemas.distinctKeys.filter fun name => (d.objectComponent? schemas name).isSome
  | _ => []

/-- A component of the description is an object: the schema that it is or refers to. -/
def HoldsComponent (d : Description) (name : String) (s : ObjectSchema) : Prop :=
  ∃ schemas, d.componentSchemas = .ok (some schemas) ∧ name ∈ schemas.distinctKeys ∧
    d.objectComponent? schemas name = some s

theorem mem_objectComponents {name : String} :
    name ∈ d.objectComponents ↔ ∃ s, d.HoldsComponent name s := by
  constructor
  · intro h
    unfold objectComponents at h
    split at h
    · rename_i schemas listed
      obtain ⟨hk, object⟩ := List.mem_filter.1 h
      obtain ⟨s, hs⟩ := Option.isSome_iff_exists.1 object
      exact ⟨s, schemas, listed, hk, hs⟩
    · cases h
  · rintro ⟨s, schemas, listed, hk, hs⟩
    rw [objectComponents, listed]
    exact List.mem_filter.2 ⟨hk, by rw [hs]; rfl⟩

theorem objectComponent?_of_resolve {name : String} {source : SchemaOrReference} {s : ObjectSchema}
    (hr : schemas.readEntry name SchemaOrReference.ofNode = .ok (some source))
    (ht : source.resolve d.root = .ok (.object s)) : d.objectComponent? schemas name = some s := by
  rw [objectComponent?, hr]
  dsimp only
  rw [ht]

/-- The type is the component with its name: it has the properties of the schema that the
component is, which are gone through while the pointer to the component is held. -/
structure IsComponent (d : Description) (guards : Guards) (schemas : Object) (s : ObjectSchema)
    (t : TypeDef) : Prop where
  listed : d.componentSchemas = .ok (some schemas)
  object : d.objectComponent? schemas t.name.value = some s
  properties : ∃ inner, guards.enter (Pointer.ofSchemaName t.name.value) = .ok inner ∧
    (propertiesOf d.root inner s t.name.value []).outcome = .ok t.properties
  named : t.name.loc = schemas.keyLoc? t.name.value
  description : t.description = s.description?.map Literal.locatedText
  rules : t.rules = s.rules
  loc : t.loc = schemas.entryLoc? t.name.value
  metadata : t.metadata = s.object.metadata

/-- A component has a type if it is an object, and no type if it is none. -/
theorem componentType_ok {name : String} {found : Option TypeDef}
    (hs : d.componentSchemas = .ok (some schemas))
    (h : (d.componentType guards schemas name).outcome = .ok found) :
    (d.objectComponent? schemas name).isSome = found.isSome ∧
      ∀ t, found = some t → t.name.value = name ∧ ∃ s, d.IsComponent guards schemas s t := by
  obtain ⟨source, hr, h⟩ := Build.lift_bind_ok h
  cases source with
  | none =>
    cases Build.pure_ok h
    simp [objectComponent?, hr]
  | some source =>
    obtain ⟨inner, hi, h⟩ := Build.lift_bind_ok h
    obtain ⟨target, ht, h⟩ := Build.lift_bind_ok h
    cases target with
    | object s =>
      obtain ⟨properties, hp, h, -⟩ := Build.bind_ok h
      obtain ⟨_, -, h, -⟩ := Build.bind_ok h
      cases Build.pure_ok h
      have object := objectComponent?_of_resolve hr ht
      refine ⟨by rw [object]; rfl, ?_⟩
      rintro t ⟨⟩
      exact ⟨rfl, s, hs, object, ⟨inner, hi, hp⟩, rfl, rfl, rfl, rfl, rfl⟩
    | _ =>
      cases Build.pure_ok h
      simp [objectComponent?, hr, ht]

/-- The types are those of the components that are objects, name by name. -/
theorem componentType_names {names : List String} {found : List (Option TypeDef)}
    (hs : d.componentSchemas = .ok (some schemas))
    (h : List.Forall₂ (fun name found => (d.componentType guards schemas name).outcome = .ok found)
      names found) :
    (found.filterMap id).map (·.name.value) =
      names.filter fun name => (d.objectComponent? schemas name).isSome := by
  induction h with
  | nil => rfl
  | @cons name type? names found h _ ih =>
    obtain ⟨same, named⟩ := componentType_ok hs h
    cases type? with
    | none =>
      rw [List.filter_cons_of_neg (by simp [same]), ← ih]
      rfl
    | some t =>
      rw [List.filter_cons_of_pos (by simp [same]), ← ih, ← (named t rfl).1]
      rfl

/-- The pass over the components comes to the types of those that are objects. -/
theorem componentTypes_ok {types : List TypeDef}
    (h : (d.componentTypes guards).outcome = .ok types) :
    types.map (·.name.value) = d.objectComponents ∧
      ∀ t ∈ types, ∃ schemas s, d.IsComponent guards schemas s t := by
  obtain ⟨components, hc, h⟩ := Build.lift_bind_ok h
  cases components with
  | none =>
    cases Build.pure_ok h
    have none : d.componentSchemas = .ok none := by
      rw [componentSchemas, hc]
      rfl
    simp [objectComponents, none]
  | some components =>
    obtain ⟨listed, hl, h⟩ := Build.lift_bind_ok h
    have hs : d.componentSchemas = .ok listed := by
      rw [componentSchemas, hc]
      exact hl
    cases listed with
    | none =>
      cases Build.pure_ok h
      simp [objectComponents, hs]
    | some schemas =>
      obtain ⟨found, hf, h, -⟩ := Build.bind_ok h
      cases Build.pure_ok h
      have each := Build.mapM_forall₂ hf
      refine ⟨?_, ?_⟩
      · simp only [objectComponents, hs]
        exact componentType_names hs each
      · intro t ht
        obtain ⟨type?, hm, same⟩ := List.mem_filterMap.1 ht
        obtain ⟨name, -, h⟩ := forall₂_mem_right each hm
        obtain ⟨-, s, component⟩ := (componentType_ok hs h).2 t same
        exact ⟨schemas, s, component⟩

theorem nodup_objectComponents (d : Description) : d.objectComponents.Nodup := by
  unfold objectComponents
  split
  · exact (nodup_eraseDups _).filter _
  · exact List.nodup_nil

/-! ## The collection -/

/-- The types without names of their own, in the order in which they are recorded: those of the
interfaces first, and then those of the components. -/
def anonymousTypes (d : Description) (guards : Guards) : List TypeDef :=
  ((interfacesOf d guards).journal ++ (d.componentTypes guards).journal).filterMap Entry.type?

/-- The types are collected from the components that are objects and the types that have no names
of their own. -/
structure Collects (d : Description) (guards : Guards) (types : List TypeDef) : Prop where
  /-- First the components, and then the names that are new, by their first use. -/
  names : types.map (·.name.value) = d.objectComponents ++
    (((d.anonymousTypes guards).map (·.name.value)).filter
      fun name => !d.objectComponents.contains name).eraseDups
  distinct : (types.map (·.name.value)).Nodup
  /-- The last type that is recorded with a name goes before the component with that name. -/
  values : ∀ t ∈ types, lastNamed (·.name.value) (d.anonymousTypes guards) t.name.value = some t ∨
    (∀ a ∈ d.anonymousTypes guards, a.name.value ≠ t.name.value) ∧
      ∃ schemas s, d.IsComponent guards schemas s t

theorem collects_foldTypes {types : List TypeDef}
    (h : (d.componentTypes guards).outcome = .ok types) :
    d.Collects guards (foldTypes (types ++ d.anonymousTypes guards)) := by
  obtain ⟨names, components⟩ := componentTypes_ok h
  constructor
  · unfold foldTypes
    rw [names_foldByName, List.map_append, names, List.eraseDups_append,
      eraseDups_eq_self (nodup_objectComponents d)]
    rfl
  · exact nodup_names_foldByName _
  · intro t ht
    have last := lastNamed_of_mem_foldByName ht
    rw [lastNamed_append] at last
    cases ha : lastNamed (·.name.value) (d.anonymousTypes guards) t.name.value with
    | some a =>
      rw [ha] at last
      exact .inl last
    | none =>
      rw [ha, Option.none_or] at last
      exact .inr ⟨lastNamed_eq_none.1 ha, components t (mem_of_lastNamed last)⟩

end OpenApi.Description

open OpenApi

/-- The types of a service that a text is converted into: those of the components that are objects
in document order, then those that the conversion records under new names in the order of their
first use, no name twice; under each name the last one that is recorded, or else the component. -/
theorem convert_collects {options : Options} {text : String} {service : Service}
    (h : (convert options text).outcome = .ok service) :
    ∃ root d, treeOf text = .ok root ∧ Description.ofNode root = .ok d ∧
      (convert options text).journal.filterMap Entry.type? =
        d.anonymousTypes (.none options.limit) ∧
      d.Collects (.none options.limit) service.types := by
  obtain ⟨root, d, ht, hd, -, yields⟩ := convert_ok h
  obtain ⟨components, hp, types⟩ := yields.passes
  refine ⟨root, d, ht, hd, ?_, ?_⟩
  · rw [convert_journal h ht hd]
    rfl
  · rw [types, Description.passes_journal hp]
    exact Description.collects_foldTypes (Description.passes_ok hp).2

namespace Sample

theorem types_farmText :
    (convert options farmText).outcome.toOption.map (fun service =>
      service.types.map fun t => (t.name.value, t.properties.map (·.name.value))) =
        some [("Breed", ["origin"]), ("body", ["name"]), ("breedOrigin", [])] := by
  rw [convert_eq_convertTree treeOf_farmText]
  cbv

end Sample

theorem convert_sample_collects :
    ∃ service, (convert Sample.options Sample.farmText).outcome = .ok service ∧
      (service.types.map fun t => (t.name.value, t.properties.map (·.name.value))) =
        [("Breed", ["origin"]), ("body", ["name"]), ("breedOrigin", [])] ∧
      ∃ root d, treeOf Sample.farmText = .ok root ∧ Description.ofNode root = .ok d ∧
        (convert Sample.options Sample.farmText).journal.filterMap Entry.type? =
          d.anonymousTypes (.none Sample.options.limit) ∧
        d.Collects (.none Sample.options.limit) service.types := by
  obtain ⟨service, ok, types⟩ := read_map_ok Sample.types_farmText
  exact ⟨service, ok, types, convert_collects ok⟩

end ServiceModel
