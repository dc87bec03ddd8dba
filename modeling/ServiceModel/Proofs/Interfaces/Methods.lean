/-
The methods of interfaces, operation by operation. What holds of every operation and the method
that it is bound to holds throughout the interfaces: every operation is in the interface of its
name, and the methods of an interface stand in the order of its operations.
-/
import ServiceModel.Proofs.Interfaces.Alignment

namespace ServiceModel.OpenApi

open Service

variable {d : Description} {guards : Guards}

/-- The methods of the interfaces are, in order, in a relation to the operations of a description,
each of which is in the interface of its name. -/
def MethodsShow (d : Description) (R : Site → Method → Prop) (interfaces : List Interface) : Prop :=
  ∃ sites, SitesOf d sites ∧
    (∀ s ∈ sites, ∃ i ∈ interfaces, s.isIn i.name.value = true) ∧
    ∀ i ∈ interfaces, List.Forall₂ R (sites.filter (·.isIn i.name.value)) i.methods

/-- The operations that are grouped are in the interfaces of their names. -/
theorem exists_interface {paths : Object} {sites : List Site} {operations : List BoundOperation}
    {interfaces : List Interface} (hb : List.Forall₂ (Binds d guards) sites operations)
    (hi : groupInterfaces d paths operations = .ok interfaces) {s : Site} (hs : s ∈ sites) :
    ∃ i ∈ interfaces, s.isIn i.name.value = true := by
  obtain ⟨op, ho, bound⟩ := forall₂_mem_left hb hs
  have listed : op.interfaceName ∈ (operations.map (·.interfaceName)).eraseDups :=
    List.mem_eraseDups.2 (List.mem_map_of_mem ho)
  obtain ⟨i, hm, hg⟩ := forall₂_mem_left (groupInterfaces_forall₂ hi) listed
  exact ⟨i, hm, by rw [isIn_of_binds bound, hg.named, beq_self_eq_true]⟩

/-- What holds of the operations that are bound, with their methods, holds of the interfaces. -/
theorem interfacesOf_methods {R : Site → Method → Prop}
    (shown : ∀ s op, Binds d guards s op → R s op.method) {interfaces : List Interface}
    (h : (interfacesOf d guards).outcome = .ok interfaces) : MethodsShow d R interfaces := by
  obtain ⟨paths, sites, groups, listed, -, hb, hg⟩ := interfacesOf_ok h
  have bound : List.Forall₂ (Binds d guards) sites.flatten groups.flatten := List.rel_flatten hb
  refine ⟨sites.flatten, listed, fun s => exists_interface bound hg, fun i hm => ?_⟩
  obtain ⟨name, -, group⟩ := forall₂_mem_right (groupInterfaces_forall₂ hg) hm
  rw [group.methods]
  exact List.forall₂_map_right_iff.2 ((binds_of_groups bound group).imp shown)

end ServiceModel.OpenApi
