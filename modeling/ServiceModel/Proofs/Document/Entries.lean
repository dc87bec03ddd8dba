/-
Entries that are there. A name occurs in an object if looking it up finds an entry; whatever was
read under a name shows that it occurs.
-/
import ServiceModel.OpenApi.Size

namespace ServiceModel.Object

/-- There is an entry with the name. -/
def Has (o : Object) (name : String) : Prop := ∃ entry, o.entry? name = some entry

variable {α : Type} {o : Object} {name : String}

theorem has_of_value? {node : Node} (h : o.value? name = some node) : o.Has name := by
  obtain ⟨entry, found, -⟩ := Option.map_eq_some_iff.1 h
  exact ⟨entry, found⟩

theorem has_of_entry {entry : Key × Node} (h : entry ∈ o.entries) : o.Has entry.1.name := by
  cases hf : o.entry? entry.1.name with
  | some found => exact ⟨found, hf⟩
  | none =>
    have absent : ∀ other ∈ o.entries, ¬ (other.1.name == entry.1.name) = true :=
      List.find?_eq_none.1 hf
    exact absurd (beq_self_eq_true _) (absent entry h)

theorem has_of_mem (h : name ∈ o.distinctKeys) : o.Has name := by
  obtain ⟨entry, he, rfl⟩ := List.mem_map.1 (List.mem_eraseDups.1 h)
  exact has_of_entry he

theorem has_of_literal? {l : Literal} (h : o.literal? name = some l) : o.Has name := by
  unfold literal? at h
  split at h
  · exact has_of_value? (by assumption)
  · cases h

theorem has_of_text? {l : Literal} (h : o.text? name = some l) : o.Has name := by
  unfold text? at h
  split at h
  · exact has_of_literal? (by assumption)
  · cases h

theorem has_of_number? {l : Literal} (h : o.number? name = some l) : o.Has name :=
  has_of_literal? (Option.filter_eq_some_iff.1 h).1

theorem has_of_child {read : Node → Except Failure α} {value : α}
    (h : o.child name read = .ok (some value)) : o.Has name := by
  obtain ⟨node, found, -⟩ := child_eq_ok h
  exact has_of_value? found

theorem has_of_array {read : Node → Except Failure α} {values : List α}
    (h : o.array name read = .ok (some values)) : o.Has name := by
  unfold array at h
  split at h
  · exact has_of_value? (by assumption)
  · cases h
  · cases h

/-! ## Values that are read -/

theorem child_of_value? {read : Node → Except Failure α} {node : Node} {value : α}
    (h : o.value? name = some node) (hr : read node = .ok value) :
    o.child name read = .ok (some value) := by
  rw [child, h]
  dsimp only
  rw [hr]

theorem absent_of_child {read : Node → Except Failure α} (h : o.child name read = .ok none) :
    o.value? name = none := by
  unfold child at h
  split at h
  · split at h <;> cases h
  · assumption

theorem array_items {read : Node → Except Failure α} {values : List α}
    (h : o.array name read = .ok (some values)) :
    ∃ items range, o.value? name = some (.array items range) ∧ items.mapM read = .ok values := by
  unfold array at h
  split at h
  · split at h
    · cases h
      exact ⟨_, _, by assumption, by assumption⟩
    · cases h
  · cases h
  · cases h

theorem array_of_items {read : Node → Except Failure α} {items : List Node} {range : Text.Range}
    {values : List α} (h : o.value? name = some (.array items range))
    (hm : items.mapM read = .ok values) : o.array name read = .ok (some values) := by
  unfold array
  rw [h]
  dsimp only
  rw [hm]

theorem absent_of_array {read : Node → Except Failure α} (h : o.array name read = .ok none) :
    o.value? name = none := by
  unfold array at h
  split at h
  · split at h <;> cases h
  · cases h
  · assumption

theorem array_of_absent {read : Node → Except Failure α} (h : o.value? name = none) :
    o.array name read = .ok none := by
  unfold array
  rw [h]

end ServiceModel.Object
