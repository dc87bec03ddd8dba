/-
The size of a schema, and that what stands below a schema is smaller. A reference has no size: it
leads away from the place where it stands.
-/
import ServiceModel.OpenApi.Schema

namespace ServiceModel

/-! ## Objects and their entries -/

theorem Object.size_lt_of_object? {node : Node} {o : Object} (h : node.object? = some o) :
    o.size < node.count := by
  cases node with
  | literal l => cases h
  | array items range => cases h
  | object entries range =>
    cases h
    simp only [Object.size, Node.count]
    omega

theorem Object.count_le_of_value? {o : Object} {name : String} {node : Node}
    (h : o.value? name = some node) : node.count ≤ o.size := by
  obtain ⟨entry, found, rfl⟩ := Option.map_eq_some_iff.1 h
  exact Node.count_le_entryCount (List.mem_of_find?_eq_some found)

theorem Object.child_eq_ok {α : Type} {o : Object} {name : String}
    {read : Node → Except Failure α} {value : α} (h : o.child name read = .ok (some value)) :
    ∃ node, o.value? name = some node ∧ read node = .ok value := by
  unfold Object.child at h
  split at h
  · rename_i node found
    split at h
    · cases h
      exact ⟨node, found, by assumption⟩
    · cases h
  · cases h

theorem mem_of_mapM_eq_ok {α β ε : Type} {f : α → Except ε β} {xs : List α} {ys : List β}
    (h : xs.mapM f = .ok ys) {y : β} (hy : y ∈ ys) : ∃ x ∈ xs, f x = .ok y := by
  induction xs generalizing ys with
  | nil =>
    cases h
    cases hy
  | cons x rest ih =>
    rw [List.mapM_cons] at h
    cases first : f x with
    | error e =>
      rw [first] at h
      cases h
    | ok value =>
      cases others : rest.mapM f with
      | error e =>
        rw [first, others] at h
        cases h
      | ok values =>
        rw [first, others] at h
        cases h
        rcases List.mem_cons.1 hy with rfl | hy
        · exact ⟨x, List.mem_cons_self, first⟩
        · obtain ⟨x', hx', found⟩ := ih others hy
          exact ⟨x', List.mem_cons_of_mem _ hx', found⟩

theorem Object.array_eq_ok {α : Type} {o : Object} {name : String}
    {read : Node → Except Failure α} {values : List α}
    (h : o.array name read = .ok (some values)) {value : α} (hv : value ∈ values) :
    ∃ items range, o.value? name = some (.array items range) ∧
      ∃ node ∈ items, read node = .ok value := by
  unfold Object.array at h
  split at h
  · rename_i items range found
    split at h
    · cases h
      obtain ⟨node, hn, hr⟩ := mem_of_mapM_eq_ok (by assumption) hv
      exact ⟨items, range, found, node, hn, hr⟩
    · cases h
  · cases h
  · cases h

/-! ## Schemas -/

/-- The size of a schema. -/
def Schema.size (s : Schema) : Nat := s.node.size

/-- The size of a schema in place; a reference has none. -/
def SchemaOrReference.size : SchemaOrReference → Nat
  | .inline s => s.size
  | .reference _ => 0

theorem Schema.node_of_ofType? {o : Object} {type : String} {s : Schema}
    (h : Schema.ofType? o type = some s) : s.node = o := by
  unfold Schema.ofType? at h
  split at h <;> cases h <;> rfl

theorem Schema.size_lt_of_classify {node : Node} {s : Schema} (h : Schema.classify node = some s) :
    s.size < node.count := by
  unfold Schema.classify at h
  split at h
  · cases h
  · rename_i o ho
    have below := Object.size_lt_of_object? ho
    split at h
    · cases h
      exact below
    · rw [Schema.size, Schema.node_of_ofType? h]
      exact below
    · cases h

theorem SchemaOrReference.size_lt_of_ofNode {node : Node} {s : SchemaOrReference}
    (h : SchemaOrReference.ofNode node = .ok s) : s.size < node.count := by
  unfold SchemaOrReference.ofNode OrReference.ofNode at h
  split at h
  · unfold Reference.ofNode at h
    cases ho : node.asObject "reference" with
    | error e =>
      rw [ho] at h
      cases h
    | ok o =>
      rw [ho] at h
      cases h
      have found : node.object? = some o := by
        unfold Node.asObject at ho
        split at ho
        · cases ho; assumption
        · cases ho
      have := Object.size_lt_of_object? found
      simp only [SchemaOrReference.size]
      omega
  · unfold Schema.ofNode at h
    split at h
    · cases h
      exact Schema.size_lt_of_classify (by assumption)
    · cases h

theorem ArraySchema.size_lt_of_items {s : ArraySchema} {items : SchemaOrReference}
    (h : s.items = .ok (some items)) : items.size < s.object.size := by
  obtain ⟨node, found, hr⟩ := Object.child_eq_ok h
  exact Nat.lt_of_lt_of_le (SchemaOrReference.size_lt_of_ofNode hr)
    (Object.count_le_of_value? found)

theorem ObjectSchema.size_lt_of_member {node : Node} {m : OrReference ObjectSchema}
    (h : ObjectSchema.member node = .ok (some m)) : m.asSchema.size < node.count := by
  unfold ObjectSchema.member at h
  split at h
  · cases hr : Reference.ofNode node with
    | error e =>
      rw [hr] at h
      cases h
    | ok r =>
      rw [hr] at h
      cases h
      exact node.count_pos
  · split at h
    · rename_i found
      cases h
      exact Schema.size_lt_of_classify found
    · cases h

theorem ObjectSchema.size_lt_of_composition {s : ObjectSchema} {name : String}
    {members : List (OrReference ObjectSchema)} (h : s.composition name = .ok (some members))
    {m : OrReference ObjectSchema} (hm : m ∈ members) : m.asSchema.size < s.object.size := by
  unfold ObjectSchema.composition at h
  cases ha : s.object.array name ObjectSchema.member with
  | error e =>
    rw [ha] at h
    cases h
  | ok found =>
    rw [ha] at h
    cases found with
    | none => cases h
    | some all =>
      cases h
      obtain ⟨o, ho, hid⟩ := List.mem_filterMap.1 hm
      cases hid
      obtain ⟨items, range, listed, node, hn, hr⟩ := Object.array_eq_ok ha ho
      have member := ObjectSchema.size_lt_of_member hr
      have inside := Node.count_le_itemCount hn
      have below := s.object.count_le_of_value? listed
      rw [Node.count] at below
      omega

theorem ObjectSchema.size_lt_of_properties {s : ObjectSchema} {index : Object}
    (h : s.properties = .ok (some index)) : index.size < s.object.size := by
  obtain ⟨node, found, hr⟩ := Object.child_eq_ok h
  have below := Object.count_le_of_value? found
  unfold Node.asObject at hr
  split at hr
  · rename_i o ho
    cases hr
    exact Nat.lt_of_lt_of_le (Object.size_lt_of_object? ho) below
  · cases hr

end ServiceModel
