/-
What the validation of a service looks at and what it reports. The uses of types that it collects
are those in the methods of the interfaces, in the types and in the unions; a name is reported as
repeated only if the names of its collection are not distinct.
-/
import ServiceModel.Proofs.Lists.Distinct
import ServiceModel.Service.Validation

namespace ServiceModel.Service

/-! ## The uses of types -/

/-- Every use of a type in a service satisfies `P`. -/
structure EveryUse (P : TypeUse → Prop) (s : Service) : Prop where
  parameters : ∀ i ∈ s.interfaces, ∀ m ∈ i.methods, ∀ p ∈ m.parameters, P p.type
  returns : ∀ i ∈ s.interfaces, ∀ m ∈ i.methods, ∀ r, m.returnType = some r → P r.type
  properties : ∀ t ∈ s.types, ∀ p ∈ t.properties, P p.type
  members : ∀ u ∈ s.unions, ∀ m ∈ u.members, P m

theorem mem_of_mem_placed {α : Type} {place : List String} {items : List α}
    {found : List String × α} (h : found ∈ placed place items) : found.2 ∈ items := by
  obtain ⟨⟨item, i⟩, hi, rfl⟩ := List.mem_map.1 h
  exact List.mem_of_getElem? (List.mem_zipIdx_iff_getElem?.1 hi)

theorem exists_mem_placed {α : Type} (place : List String) {items : List α} {item : α}
    (h : item ∈ items) : ∃ here, (here, item) ∈ placed place items := by
  obtain ⟨i, hi⟩ := List.mem_iff_getElem?.1 h
  exact ⟨_, List.mem_map.2 ⟨(item, i), List.mem_zipIdx_iff_getElem?.2 hi, rfl⟩⟩

theorem Method.forall_uses {P : TypeUse → Prop} (place : List String) {m : Method} :
    (∀ found ∈ m.uses place, P found.2) ↔
      (∀ p ∈ m.parameters, P p.type) ∧ ∀ r, m.returnType = some r → P r.type := by
  constructor
  · intro h
    refine ⟨fun p hp => ?_, fun r hr => ?_⟩
    · obtain ⟨here, hh⟩ := exists_mem_placed (place ++ ["parameters"]) hp
      exact h (here, p.type) (List.mem_append_left _ (List.mem_map.2 ⟨_, hh, rfl⟩))
    · refine h (place ++ ["returnType"], r.type) (List.mem_append_right _ ?_)
      rw [hr]
      exact List.mem_singleton.2 rfl
  · rintro ⟨hp, hr⟩ found hf
    rcases List.mem_append.1 hf with hf | hf
    · obtain ⟨placed, hm, rfl⟩ := List.mem_map.1 hf
      exact hp _ (mem_of_mem_placed hm)
    · cases ht : m.returnType with
      | none => rw [ht] at hf; cases hf
      | some r =>
        rw [ht] at hf
        cases List.mem_singleton.1 hf
        exact hr r ht

/-- Nothing is validated but the uses of types in the service, and every one of them is. -/
theorem forall_uses {P : TypeUse → Prop} {s : Service} :
    (∀ found ∈ s.uses, P found.2) ↔ s.EveryUse P := by
  constructor
  · intro h
    have hm : ∀ i ∈ s.interfaces, ∀ m ∈ i.methods,
        (∀ p ∈ m.parameters, P p.type) ∧ ∀ r, m.returnType = some r → P r.type := by
      intro i hi m hm
      obtain ⟨atInterface, hi⟩ := exists_mem_placed ["interfaces"] hi
      obtain ⟨atMethod, hm⟩ := exists_mem_placed (atInterface ++ ["methods"]) hm
      refine (Method.forall_uses atMethod).1 fun found hf => h found ?_
      refine List.mem_append_left _ (List.mem_append_left _ ?_)
      exact List.mem_flatMap.2 ⟨_, hi, List.mem_flatMap.2 ⟨_, hm, hf⟩⟩
    refine ⟨fun i hi m hm' => (hm i hi m hm').1, fun i hi m hm' => (hm i hi m hm').2, ?_, ?_⟩
    · intro t ht p hp
      obtain ⟨atType, ht⟩ := exists_mem_placed ["types"] ht
      obtain ⟨here, hp⟩ := exists_mem_placed (atType ++ ["properties"]) hp
      refine h (here, p.type) (List.mem_append_left _ (List.mem_append_right _ ?_))
      exact List.mem_flatMap.2 ⟨_, ht, List.mem_map.2 ⟨_, hp, rfl⟩⟩
    · intro u hu m hm
      obtain ⟨atUnion, hu⟩ := exists_mem_placed ["unions"] hu
      obtain ⟨here, hm⟩ := exists_mem_placed (atUnion ++ ["members"]) hm
      exact h (here, m) (List.mem_append_right _ (List.mem_flatMap.2 ⟨_, hu, hm⟩))
  · rintro ⟨hp, hr, ht, hu⟩ found hf
    rcases List.mem_append.1 hf with hf | hf
    · rcases List.mem_append.1 hf with hf | hf
      · obtain ⟨i, hi, hf⟩ := List.mem_flatMap.1 hf
        obtain ⟨m, hm, hf⟩ := List.mem_flatMap.1 hf
        have hi := mem_of_mem_placed hi
        have hm := mem_of_mem_placed hm
        exact (Method.forall_uses _).2 ⟨hp _ hi _ hm, hr _ hi _ hm⟩ found hf
      · obtain ⟨t, hti, hf⟩ := List.mem_flatMap.1 hf
        obtain ⟨p, hpi, rfl⟩ := List.mem_map.1 hf
        exact ht _ (mem_of_mem_placed hti) _ (mem_of_mem_placed hpi)
    · obtain ⟨u, hui, hf⟩ := List.mem_flatMap.1 hf
      exact hu _ (mem_of_mem_placed hui) _ (mem_of_mem_placed hf)

/-! ## Defects -/

/-- A type that is reported as undefined is used, and it is not defined. -/
theorem mem_closureDefects {s : Service} {defect : Defect} (h : defect ∈ s.closureDefects) :
    ∃ place use, (place, use) ∈ s.uses ∧ use.isPrimitive = false ∧
      use.typeName.value ∉ s.definedNames ∧ defect = .undefinedType place use.typeName.value := by
  obtain ⟨⟨place, use⟩, hu, hd⟩ := List.mem_filterMap.1 h
  simp only at hd
  split at hd
  · cases hd
  · rename_i undefined
    cases hd
    rw [Bool.or_eq_true, not_or] at undefined
    refine ⟨place, use, hu, by simpa using undefined.1, fun hm => ?_, rfl⟩
    exact undefined.2 (List.contains_iff_mem.2 hm)

theorem repeatedNames_of_nodup {collection : String} {names : List String} (h : names.Nodup) :
    repeatedNames collection names = [] := by
  have none : names.eraseDups.filter (1 < names.count ·) = [] := by
    refine List.filter_eq_nil_iff.2 fun name _ => ?_
    have := List.nodup_iff_count_le_one.1 h name
    simp only [decide_eq_true_eq]
    omega
  rw [repeatedNames, none, List.map_nil]

theorem uniquenessDefects_of_nodup {s : Service} (types : (s.types.map (·.name.value)).Nodup)
    (enums : (s.enums.map (·.name.value)).Nodup) (unions : (s.unions.map (·.name.value)).Nodup)
    (interfaces : (s.interfaces.map (·.name.value)).Nodup) : s.uniquenessDefects = [] := by
  rw [uniquenessDefects, repeatedNames_of_nodup types, repeatedNames_of_nodup enums,
    repeatedNames_of_nodup unions, repeatedNames_of_nodup interfaces]
  rfl

end ServiceModel.Service
