/-
Where the spans of a service come from. Each of them, and each span of an unsupported feature, is
that of something in the document: a node, the name of an entry or a whole entry. The constructs
that stand for a place of the document always carry one, among them every rule but the one that a
value has to be present.

A service that is alike to itself, with spans related if the first is one of the document, says
just that; and so it is for a conversion that is paired with itself.
-/
import ServiceModel.Proofs.Conversion.Pairing
import ServiceModel.Proofs.Document.Diagonal

namespace ServiceModel

open Service OpenApi

/-- Every span in a service is of a kind, and no construct that has to carry one is without. -/
def Service.Traced (P : String → Prop) (s : Service) : Prop := s.Alike (fun loc _ => P loc) s

/-- A conversion of a tree that comes to a service takes its spans from the tree. -/
theorem convertTree_traced {options : Options} {root : Node} {service : Service}
    (h : (convertTree options root).outcome = .ok service) :
    service.Traced root.Locates ∧
      ∀ v ∈ violationsIn (convertTree options root).journal, root.Locates v.loc := by
  let p : Pairing root root := .diagonal root options.limit (fun _ => True) (fun _ => trivial)
    fun _ => trivial
  have agree : p.Builds (Service.Alike p.spans) (convertTree options root)
      (convertTree options root) := p.convertTree rfl
  obtain ⟨service', ho, alike, journals⟩ := agree.of_ok h
  cases h.symm.trans ho
  refine ⟨alike, fun v hv => ?_⟩
  obtain ⟨v', -, same⟩ := forall₂_mem_left (violations_alike journals) hv
  exact same.loc

/-- Every span in a service that a text is converted into, and every span of an unsupported
feature, is one of the document; and what stands for a place in the document carries its span. -/
theorem convert_traced {options : Options} {text : String} {service : Service}
    (h : (convert options text).outcome = .ok service) :
    ∃ root, treeOf text = .ok root ∧ service.Traced root.Locates ∧
      ∀ v ∈ violationsIn (convert options text).journal, root.Locates v.loc := by
  obtain ⟨root, ht, h⟩ := Build.lift_bind_ok h
  have same : convert options text = convertTree options root := by
    unfold convert
    rw [ht]
    rfl
  rw [same]
  exact ⟨root, ht, convertTree_traced h⟩

theorem convert_sample_traced : ∃ service,
    (convert Sample.options Sample.text).outcome = .ok service ∧
      ∃ root, treeOf Sample.text = .ok root ∧ service.Traced root.Locates ∧
        ∀ v ∈ violationsIn (convert Sample.options Sample.text).journal, root.Locates v.loc := by
  obtain ⟨service, ok⟩ := Sample.converts
  exact ⟨service, ok, convert_traced ok⟩

end ServiceModel
