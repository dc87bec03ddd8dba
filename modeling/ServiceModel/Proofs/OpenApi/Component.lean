/-
References to component schemas. A pointer that names a component leads to the first entry with
that name among the component schemas, and a reference with that pointer stands for the same
schema as what is written there: the chain of references that starts at the entry is the rest of
the chain that starts at the reference.
-/
import ServiceModel.Interfaces.Security
import ServiceModel.OpenApi.Component
import ServiceModel.Proofs.Document.Chain
import ServiceModel.Proofs.Text.Split

namespace ServiceModel

/-! ## Pointers that name a component -/

namespace Pointer

/-- The names in a pointer that names a component. -/
theorem keys_of_schemaName {pointer component : String}
    (h : schemaName? pointer = some component) :
    keys pointer = .ok ["components", "schemas", component] := by
  unfold schemaName? at h
  split at h
  · cases h
  · rename_i written hw
    split at h
    · cases h
    · rename_i plain
      cases h
      have hp : '/' ∉ written := by
        intro hm
        exact plain (by rw [List.contains_iff_mem.2 hm, Bool.or_true])
      have text : pointer.toList =
          '#' :: '/' :: ("components".toList ++ '/' :: ("schemas".toList ++ '/' :: written)) :=
        Text.after?_eq_some hw
      -- the pieces between the slashes, of which the last has none left
      unfold keys
      rw [text]
      simp only
      rw [Text.cut_append (by decide), Text.cut_append (by decide), Text.cut_of_not_mem hp]
      rfl

theorem walk_cons {entry found : Key × Node} {key : String} {rest : List String}
    (h : walk entry (key :: rest) = some found) :
    ∃ o next, entry.2.object? = some o ∧ o.entry? key = some next ∧
      walk next rest = some found := by
  rw [walk] at h
  split at h
  · cases h
  · rename_i o ho
    split at h
    · cases h
    · rename_i next hn
      exact ⟨o, next, ho, hn, h⟩

end Pointer

namespace Node

/-- Where a pointer that names a component leads. -/
theorem resolve_component {root node : Node} {pointer component : String}
    (hn : Pointer.schemaName? pointer = some component) (h : root.resolve pointer = .ok node) :
    ∃ (top components schemas : Object) (c s : Node), root.object? = some top ∧
      top.value? "components" = some c ∧ c.object? = some components ∧
      components.value? "schemas" = some s ∧ s.object? = some schemas ∧
      schemas.value? component = some node := by
  unfold resolve entryAt at h
  rw [Pointer.keys_of_schemaName hn] at h
  simp only at h
  cases hw : Pointer.walk (⟨"", root.range⟩, root) ["components", "schemas", component] with
  | none => rw [hw] at h; cases h
  | some entry =>
    rw [hw] at h
    cases h
    obtain ⟨top, first, ht, hf, hw⟩ := Pointer.walk_cons hw
    obtain ⟨components, second, hc, hs, hw⟩ := Pointer.walk_cons hw
    obtain ⟨schemas, third, hcs, hl, hw⟩ := Pointer.walk_cons hw
    cases hw
    refine ⟨top, components, schemas, first.2, second.2, ht, ?_, hc, ?_, hcs, ?_⟩
    · rw [Object.value?, hf]; rfl
    · rw [Object.value?, hs]; rfl
    · rw [Object.value?, hl]; rfl

end Node

/-! ## References to a component -/

namespace SchemaOrReference

/-- What a reference stands for is what is written, or referred to, where its pointer leads. -/
theorem resolve_written {root : Node} {r : Reference} {pointer : String} {target : Schema}
    (hp : r.pointer = .ok pointer)
    (ht : resolve root (.reference r) = .ok target) :
    ∃ node source, root.resolve pointer = .ok node ∧ ofNode node = .ok source ∧
      source.resolve root = .ok target := by
  obtain ⟨landed, hl, hc⟩ := read_bind_ok ht
  have found : Schema.classify landed = some target := by
    split at hc
    · cases hc; assumption
    · obtain ⟨p, -, hc⟩ := read_bind_ok hc
      cases hc
  have leads : Reference.Leads root [] pointer (r.target root) := Reference.leads_target hp
  rw [hl] at leads
  cases leads with
  | landed _ hr hi =>
    refine ⟨landed, .inline target, hr, ?_, rfl⟩
    unfold ofNode OrReference.ofNode Schema.ofNode
    rw [hi, found]
    rfl
  | @next _ _ next node _ _ hr hi hnext rest =>
    -- the entry is a reference itself, with the rest of the chain as its own
    obtain ⟨r', hr', hp'⟩ := read_bind_ok hnext
    have own := rest.of_seen_subset (List.nil_subset _) rfl
    have same : r'.target root = .ok landed := (Reference.leads_target hp').unique own
    refine ⟨node, .reference r', hr, ?_, ?_⟩
    · unfold ofNode OrReference.ofNode
      rw [hi, hr']
      rfl
    · unfold resolve
      simp only [same, bind, Except.bind, found]
      rfl

end SchemaOrReference

namespace OpenApi.Description

/-- A reference to a component finds the schema that the components of the description hold under
its name. -/
theorem component_of_reference {d : Description} {r : Reference} {pointer component : String}
    {target : Schema} (hp : r.pointer = .ok pointer)
    (hn : Pointer.schemaName? pointer = some component)
    (ht : SchemaOrReference.resolve d.root (.reference r) = .ok target) :
    ∃ components schemas source, d.components = .ok (some components) ∧
      components.schemas = .ok (some schemas) ∧ component ∈ schemas.distinctKeys ∧
      schemas.readEntry component SchemaOrReference.ofNode = .ok (some source) ∧
      source.resolve d.root = .ok target := by
  obtain ⟨node, source, hr, ho, hs⟩ := SchemaOrReference.resolve_written hp ht
  obtain ⟨top, components, schemas, c, s, htop, hc, hcs, hss, hsch, hv⟩ :=
    Node.resolve_component hn hr
  have same : top = d.object := by
    cases htop; rfl
  subst same
  refine ⟨⟨components⟩, schemas, source, ?_, ?_, ?_, ?_, hs⟩
  · unfold Description.components Object.child
    rw [hc]
    simp only [Components.ofNode, Node.asObject, hcs]
    rfl
  · unfold Components.schemas Object.index Object.child
    rw [hss]
    simp only [Node.asObject, hsch]
  · obtain ⟨entry, he, -⟩ := Option.map_eq_some_iff.1 hv
    have named : entry.1.name = component := by simpa using List.find?_some he
    rw [Object.distinctKeys, List.mem_eraseDups]
    exact List.mem_map.2 ⟨entry, List.mem_of_find?_eq_some he, named⟩
  · unfold Object.readEntry Object.child
    rw [hv]
    simp only [ho]

end OpenApi.Description

end ServiceModel
