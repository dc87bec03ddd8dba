/-
A service that a description is converted into is closed: every type that it uses is primitive, or
defined in it, or the loose pointer of a reference. The passes rely on each other for this. What
the synthesis names after a component is defined by the pass over the components, and what either
of them names after a place is recorded; keeping one definition for every name loses no name.
-/
import ServiceModel.Proofs.Conversion.Types
import ServiceModel.Proofs.Interfaces.Alignment
import ServiceModel.Proofs.Interfaces.Settled
import ServiceModel.Proofs.OpenApi.Component
import ServiceModel.Proofs.Service.Fold
import ServiceModel.Proofs.Service.Validation

namespace ServiceModel

open Service

namespace OpenApi.Description

variable {d : Description} {defined : String → Prop} {guards : Guards}

/-! ## Components -/

section

variable {N : String → String → Prop} {M : ObjectSchema → String → Prop} {A P : Entry → Prop}
  {U : TypeUse → Prop} (described : Described d.root N M A P U)

include described

theorem ensures_componentType {schemas : Object} (hs : schemas.node.Within d.root) {name : String}
    (place : ∀ s, d.objectComponent? schemas name = some s → M s name) :
    Build.Ensures A P (fun found => ∀ t, found = some t → ∀ p ∈ t.properties, U p.type)
      (d.componentType guards schemas name) := by
  unfold componentType
  refine .lift_bind fun found hf => ?_
  cases found with
  | none => exact .pure fun _ h => nomatch h
  | some source =>
    refine .lift_bind fun inner _ => ?_
    refine .lift_bind fun target ht => ?_
    cases target with
    | object s =>
      have of := SchemaOrReference.of_resolve (SchemaOrReference.of_child hs hf) ht
      have place := place s (objectComponent?_of_resolve hf ht)
      refine .bind (described.properties of.within place) fun properties _ hp => ?_
      refine .bind (.record fun _ => described.others rfl) fun _ _ _ => .pure ?_
      rintro t ⟨⟩
      exact hp
    | _ => exact .pure fun _ h => nomatch h

theorem ensures_componentTypes (places : ∀ name s, d.HoldsComponent name s → M s name) :
    Build.Ensures A P (fun types => ∀ t ∈ types, ∀ p ∈ t.properties, U p.type)
      (d.componentTypes guards) := by
  unfold componentTypes
  refine .lift_bind fun found hc => ?_
  cases found with
  | none => exact .pure fun _ h => nomatch h
  | some held =>
    refine .lift_bind fun found hs => ?_
    cases found with
    | none => exact .pure fun _ h => nomatch h
    | some schemas =>
      have hw : schemas.node.Within d.root :=
        (View.index_below hs).within.trans (View.child_below View.reads_components hc).within
      have listed : d.componentSchemas = .ok (some schemas) := by
        rw [componentSchemas, hc]
        exact hs
      refine .bind (.mapM fun name hk => ensures_componentType described hw fun s object =>
        places name s ⟨schemas, listed, hk, object⟩) fun found _ hf => ?_
      refine .pure fun t ht => ?_
      obtain ⟨found', hm, same⟩ := List.mem_filterMap.1 ht
      exact hf found' hm t same

end

/-- A reference to a component that is an object leads to what the pass comes to under its name. -/
theorem holdsComponent_of_reference {r : Reference} {pointer component : String} {s : ObjectSchema}
    (hp : r.pointer = .ok pointer) (hn : Pointer.schemaName? pointer = some component)
    (ht : SchemaOrReference.resolve d.root (.reference r) = .ok (.object s)) :
    d.HoldsComponent component s := by
  obtain ⟨components, schemas, source, hc, hs, hk, hr, ht⟩ := component_of_reference hp hn ht
  exact ⟨schemas, by rw [componentSchemas, hc]; exact hs, hk, objectComponent?_of_resolve hr ht⟩

/-- What is ensured of all schemas that are described is ensured of the passes. -/
theorem ensures_passes {N : String → String → Prop} {M : ObjectSchema → String → Prop}
    {A P : Entry → Prop} {U : TypeUse → Prop} (described : Described d.root N M A P U)
    (places : ∀ item operation, HoldsOperation d item operation → PlacesOf d N item operation)
    (parents : ∀ name s, d.HoldsComponent name s → M s name) :
    Build.Ensures A P (fun found => (∀ i ∈ found.1, ∀ m ∈ i.methods, UsesOf U m) ∧
      ∀ t ∈ found.2, ∀ p ∈ t.properties, U p.type) (d.passes guards) := by
  refine .bind (ensures_interfacesOf described places) fun interfaces _ hi => ?_
  exact .bind (ensures_componentTypes described parents) fun types _ ht => .pure ⟨hi, ht⟩

/-! ## Services -/

variable {options : Options} {service : Service}

theorem mem_map_filterMap {α β γ : Type} {pick : α → Option β} {f : β → γ} {list : List α} {c : γ} :
    c ∈ (list.filterMap pick).map f ↔ ∃ a ∈ list, ∃ b, pick a = some b ∧ f b = c := by
  rw [List.mem_map]
  constructor
  · rintro ⟨b, hb, hf⟩
    obtain ⟨a, ha, picked⟩ := List.mem_filterMap.1 hb
    exact ⟨a, ha, b, picked, hf⟩
  · rintro ⟨a, ha, b, picked, hf⟩
    exact ⟨b, List.mem_filterMap.2 ⟨a, ha, picked⟩, hf⟩

/-- What is defined in the service: the components that are objects, and what the passes record. -/
theorem Yields.mem_definedNames (h : d.Yields options service) {name : String} :
    name ∈ service.definedNames ↔ name ∈ d.objectComponents ∨
      ∃ e ∈ (d.passes (.none options.limit)).journal, e.name? = some name := by
  obtain ⟨⟨components, hp, types⟩, enums, unions⟩ := h
  have split (e : Entry) : e.name? = some name ↔ (∃ t, e.type? = some t ∧ t.name.value = name) ∨
      (∃ x, e.enum? = some x ∧ x.name.value = name) ∨
      ∃ u, e.union? = some u ∧ u.name.value = name := by
    cases e <;> simp [Entry.name?, Entry.type?, Entry.enum?, Entry.union?]
  unfold Service.definedNames
  rw [types, enums, unions, foldTypes, foldEnums, foldUnions, List.mem_append, List.mem_append,
    mem_names_foldByName, mem_names_foldByName, mem_names_foldByName, List.map_append,
    List.mem_append, (componentTypes_ok (passes_ok hp).2).1, mem_map_filterMap, mem_map_filterMap,
    mem_map_filterMap]
  simp only [split, and_or_left, exists_or, or_assoc]

/-- Every use of a type in the service is settled. -/
theorem Yields.everyUse (h : d.Yields options service) :
    service.EveryUse (Settled d.root (· ∈ service.definedNames)) := by
  have records : ∀ e ∈ (d.passes (.none options.limit)).journal,
      e.Defined (· ∈ service.definedNames) :=
    fun e he name hn => h.mem_definedNames.2 (.inr ⟨e, he, hn⟩)
  have components : DefinesComponents d.root (· ∈ service.definedNames) :=
    fun r pointer component s hr hn ht => h.mem_definedNames.2
      (.inl (mem_objectComponents.2 ⟨s, holdsComponent_of_reference hr hn ht⟩))
  obtain ⟨types, hp, htypes⟩ := h.passes
  have both : Build.Ensures (Entry.Defined (· ∈ service.definedNames))
      (Entry.Settled d.root (· ∈ service.definedNames)) _ (d.passes (.none options.limit)) :=
    ensures_passes (described_settled components) (fun item operation _ =>
      placesOf_anywhere item operation) fun _ _ _ => trivial
  -- what the passes rely on holds, since all that they record is kept under its name
  obtain ⟨journal, value⟩ := both records
  obtain ⟨hi, ht⟩ := value _ hp
  refine ⟨fun i him m hm => (hi i him m hm).1, fun i him m hm => (hi i him m hm).2, ?_, ?_⟩
  · intro t hm
    rw [htypes] at hm
    rcases List.mem_append.1 (mem_foldByName hm) with hm | hm
    · exact ht t hm
    · obtain ⟨e, he, hte⟩ := List.mem_filterMap.1 hm
      cases e with
      | type t' => cases hte; exact journal _ he
      | _ => cases hte
  · intro u hm
    rw [h.unions] at hm
    obtain ⟨e, he, hue⟩ := List.mem_filterMap.1 (mem_foldByName hm)
    cases e with
    | union u' => cases hue; exact journal _ he
    | _ => cases hue

/-- No name is repeated in a collection of the service. -/
theorem Yields.unique (h : d.Yields options service) : service.uniquenessDefects = [] := by
  obtain ⟨⟨components, hp, types⟩, enums, unions⟩ := h
  obtain ⟨sites, -, aligned⟩ := interfacesOf_aligned (passes_ok hp).1
  refine uniquenessDefects_of_nodup ?_ ?_ ?_ aligned.distinct
  · rw [types]; exact nodup_names_foldByName _
  · rw [enums]; exact nodup_names_foldByName _
  · rw [unions]; exact nodup_names_foldByName _

end OpenApi.Description

/-- A service that a text is converted into is closed. Every parameter, returned type, property
and member of a union has a primitive type under one of the names for them, or a type that is
defined in the service, or for a type the pointer of a reference in the text, as it is written,
that names no component. The validation reports no repeated name, and only such pointers as
undefined. -/
theorem convert_closed {options : Options} {text : String} {service : Service}
    (h : (convert options text).outcome = .ok service) :
    ∃ root, treeOf text = .ok root ∧
      service.EveryUse (Settled root (· ∈ service.definedNames)) ∧
      service.uniquenessDefects = [] ∧
      ∀ defect ∈ service.defects, ∃ place name, defect = .undefinedType place name ∧
        LoosePointer root name := by
  obtain ⟨root, d, ht, -, rfl, yields⟩ := convert_ok h
  have settled := yields.everyUse
  have unique := yields.unique
  refine ⟨d.root, ht, settled, unique, fun defect hd => ?_⟩
  rw [Service.defects, unique, List.append_nil] at hd
  obtain ⟨place, use, hu, hprimitive, hundefined, rfl⟩ := mem_closureDefects hd
  refine ⟨place, _, rfl, ?_⟩
  -- of the settled uses only loose pointers are reported
  rcases forall_uses.2 settled _ hu with ⟨primitive, -⟩ | ⟨-, defined⟩ | ⟨-, loose⟩
  · rw [hprimitive] at primitive; cases primitive
  · exact absurd defined hundefined
  · exact loose

theorem convert_sample_closed :
    ∃ service, (convert Sample.options Sample.text).outcome = .ok service ∧
      ∃ root, treeOf Sample.text = .ok root ∧
        service.EveryUse (Settled root (· ∈ service.definedNames)) ∧
        service.uniquenessDefects = [] ∧
        ∀ defect ∈ service.defects, ∃ place name, defect = .undefinedType place name ∧
          LoosePointer root name := by
  obtain ⟨service, ok⟩ := Sample.converts
  exact ⟨service, ok, convert_closed ok⟩

end ServiceModel
