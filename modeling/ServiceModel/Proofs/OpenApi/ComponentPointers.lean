/-
The pointers to component schemas. What takes the name out of such a pointer and what resolves
pointers in general read each pointer alike: it names a component exactly if the names in it are
those of the place of the components and one more that is not empty. What writes the pointer to a
component is undone by both, so that components of different names have different pointers.
-/
import ServiceModel.Proofs.Document.Pointers
import ServiceModel.Proofs.OpenApi.Component

namespace ServiceModel

namespace Node

/-- The value under a name; no other node than an object holds any. -/
def value? (node : Node) (name : String) : Option Node := do
  let o ← node.object?
  o.value? name

/-- What the document holds under a name among its component schemas. -/
def componentSchema? (root : Node) (name : String) : Option Node := do
  let components ← root.value? "components"
  let schemas ← components.value? "schemas"
  schemas.value? name

end Node

namespace Pointer

open Text (after? cut join)

/-- The names that lead to a component schema. -/
def schemaNames (name : String) : List String := ["components", "schemas", name]

theorem ofSchemaName_eq_ofKeys (name : String) : ofSchemaName name = ofKeys (schemaNames name) := by
  have place : schemasLead.toList = '#' :: '/' :: (escape "components".toList ++
      '/' :: (escape "schemas".toList ++ ['/'])) := by decide
  rw [ofSchemaName, ofKeys, schemaNames, ← String.toList_inj, String.toList_append, place,
    String.toList_ofList, String.toList_ofList]
  simp [List.flatMap_cons]

theorem keys_ofSchemaName (name : String) : keys (ofSchemaName name) = .ok (schemaNames name) := by
  rw [ofSchemaName_eq_ofKeys, keys_ofKeys]

/-! ## Names taken out of pointers -/

theorem schemaName?_of_plain {pointer : String} {written : List Char} (some : written ≠ [])
    (plain : '/' ∉ written) (h : pointer.toList = schemasLead.toList ++ written) :
    schemaName? pointer = .some (String.ofList (unescape written)) := by
  have left : (written.isEmpty || written.contains '/') = false := by
    rw [Bool.or_eq_false_iff, List.isEmpty_eq_false_iff, List.contains_eq_mem,
      decide_eq_false_iff_not]
    exact ⟨some, plain⟩
  rw [schemaName?, h, Text.after?_append]
  simp only [left, Bool.false_eq_true, if_false]

theorem ne_empty_of_schemaName {pointer name : String} (h : schemaName? pointer = some name) :
    name ≠ "" := by
  rintro rfl
  unfold schemaName? at h
  split at h
  · cases h
  · rename_i written _
    split at h
    · cases h
    · rename_i left
      have none : unescape written = [] := by
        have text := congrArg String.toList (Option.some.inj h)
        rwa [String.toList_ofList] at text
      exact left (by rw [unescape_eq_nil.1 none]; rfl)

/-- A pointer whose names lead to a component schema is written with the place of the components
as it is, and behind it the name in some way that holds no slash. -/
theorem written_of_keys {pointer name : String} (h : keys pointer = .ok (schemaNames name)) :
    ∃ written, pointer.toList = schemasLead.toList ++ written ∧ '/' ∉ written ∧
      String.ofList (unescape written) = name := by
  unfold keys at h
  split at h
  · cases h
  · rename_i body text
    obtain ⟨first, rest, hc, hfirst, hrest⟩ := List.map_eq_cons_iff.1 (Except.ok.inj h)
    obtain ⟨second, rest, rfl, hsecond, hrest⟩ := List.map_eq_cons_iff.1 hrest
    obtain ⟨last, rest, rfl, hlast, hrest⟩ := List.map_eq_cons_iff.1 hrest
    cases List.map_eq_nil_iff.1 hrest
    -- an escape stands for a tilde or a slash, and the names of the place hold neither
    have asIs {piece : List Char} {plain : String} (hp : Plain plain)
        (he : String.ofList (unescape piece) = plain) : piece = plain.toList := by
      have text := congrArg String.toList he
      rw [String.toList_ofList] at text
      rw [← text]
      exact (eq_of_unescape piece (text ▸ hp.1) (text ▸ hp.2)).symm
    cases asIs (by decide) hfirst
    cases asIs (by decide) hsecond
    refine ⟨last, ?_, @Text.not_mem_of_mem_cut '/' body last (by simp [hc]), hlast⟩
    rw [text, ← Text.join_cut '/' body, hc]
    rfl
  · cases h
  · cases h

/-- Taking the name out of a pointer and reading all its names come to the same. -/
theorem schemaName?_eq_some_iff {pointer name : String} :
    schemaName? pointer = some name ↔ name ≠ "" ∧ keys pointer = .ok (schemaNames name) := by
  constructor
  · intro h
    exact ⟨ne_empty_of_schemaName h, keys_of_schemaName h⟩
  · rintro ⟨some, h⟩
    obtain ⟨written, text, plain, rfl⟩ := written_of_keys h
    refine schemaName?_of_plain ?_ plain text
    rintro rfl
    exact some rfl

end Pointer

/-! ## Where the pointers lead -/

theorem Node.resolve_ofSchemaName (root : Node) (name : String) :
    root.resolve (Pointer.ofSchemaName name) =
      match root.componentSchema? name with
      | some node => .ok node
      | none => .error (.pointer (.unresolvable (Pointer.ofSchemaName name))) := by
  have value (node : Node) (name : String) : node.value? name = ( node.entry? name).map (·.2) := by
    rw [ entry?, Option.map_bind]
    rfl
  have led : root.componentSchema? name =
      (Pointer.walk (⟨"", root.range⟩, root) (Pointer.schemaNames name)).map (·.2) := by
    have last (entry : Key × Node) : Pointer.walk entry [] = some entry := rfl
    simp only [componentSchema?, value, Pointer.schemaNames, Pointer.walk_eq_bind, last,
      Option.bind_eq_bind, Option.bind_map, Option.map_bind, Option.bind_fun_some,
      Function.comp_def]
  rw [resolve, entryAt_of_keys (Pointer.keys_ofSchemaName name), led]
  cases Pointer.walk (⟨"", root.range⟩, root) (Pointer.schemaNames name) <;> rfl

open Text (replace)

/-- Taking names out of the pointers to component schemas, writing these and resolving them fit. -/
structure ComponentPointersFit : Prop where
  /-- Behind the place of the components, the tildes of the name are escaped first and its slashes
  then. -/
  written : ∀ name, (Pointer.ofSchemaName name).toList = "#/components/schemas/".toList ++
    replace ['/'] ['~', '1'] (replace ['~'] ['~', '0'] name.toList)
  /-- A pointer names a component exactly if its names are those of the place of the components
  and the name, which is not empty. -/
  named : ∀ pointer name, Pointer.schemaName? pointer = some name ↔
    name ≠ "" ∧ Pointer.keys pointer = .ok ["components", "schemas", name]
  /-- The name that a pointer is written for is taken out of it, unless it is empty. -/
  back : ∀ name, Pointer.schemaName? (Pointer.ofSchemaName name) =
    if name = "" then none else some name
  /-- The pointer leads to what the components hold under the name, if they hold anything. -/
  leads : ∀ root name, Node.resolve root (Pointer.ofSchemaName name) =
    match root.componentSchema? name with
    | some node => .ok node
    | none => .error (.pointer (.unresolvable (Pointer.ofSchemaName name)))
  /-- Components of different names have different pointers. -/
  injective : Function.Injective Pointer.ofSchemaName

theorem component_pointers_fit : ComponentPointersFit where
  written name := by
    rw [Pointer.ofSchemaName, String.toList_append, String.toList_ofList,
      Pointer.escape_eq_replace, Pointer.schemasLead]
  named _ _ := Pointer.schemaName?_eq_some_iff
  back name := by
    by_cases empty : name = ""
    · rw [if_pos empty, Option.eq_none_iff_forall_ne_some]
      intro found h
      obtain ⟨some, hk⟩ := Pointer.schemaName?_eq_some_iff.1 h
      rw [Pointer.keys_ofSchemaName, empty] at hk
      cases hk
      exact some rfl
    · rw [if_neg empty]
      exact Pointer.schemaName?_eq_some_iff.2 ⟨empty, Pointer.keys_ofSchemaName name⟩
  leads := Node.resolve_ofSchemaName
  injective name name' same := by
    have names := (Pointer.keys_ofSchemaName name).symm.trans
      ((congrArg Pointer.keys same).trans (Pointer.keys_ofSchemaName name'))
    cases names
    rfl

end ServiceModel
