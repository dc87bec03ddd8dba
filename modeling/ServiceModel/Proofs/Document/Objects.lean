/-
The object nodes of a document. Every object within the document is among them, and as soon as the
document holds a value that is no object they are fewer than its nodes.
-/
import ServiceModel.Proofs.Document.Within

namespace ServiceModel.Node

mutual

/-- The object nodes of a tree, in document order. -/
def objects : Node → List Object
  | .literal _ => []
  | .array items _ => objectsAmong items
  | .object entries range => ⟨entries, range⟩ :: objectsUnder entries

def objectsAmong : List Node → List Object
  | [] => []
  | item :: rest => item.objects ++ objectsAmong rest

def objectsUnder : List (Key × Node) → List Object
  | [] => []
  | (_, value) :: rest => value.objects ++ objectsUnder rest

end

/-! ## Objects within a document -/

theorem objectsAmong_eq (items : List Node) : objectsAmong items = items.flatMap objects := by
  induction items with
  | nil => rfl
  | cons item rest ih => rw [objectsAmong, ih, List.flatMap_cons]

theorem objectsUnder_eq (entries : List (Key × Node)) :
    objectsUnder entries = entries.flatMap (·.2.objects) := by
  induction entries with
  | nil => rfl
  | cons entry rest ih => rw [objectsUnder, ih, List.flatMap_cons]

theorem Child.objects_subset {a b : Node} (h : Child a b) : a.objects ⊆ b.objects := by
  intro o ho
  cases h with
  | item h =>
    rw [objects, objectsAmong_eq]
    exact List.mem_flatMap.2 ⟨a, h, ho⟩
  | value h =>
    rw [objects, objectsUnder_eq]
    exact List.mem_cons_of_mem _ (List.mem_flatMap.2 ⟨_, h, ho⟩)

theorem Within.objects_subset {a b : Node} (h : a.Within b) : a.objects ⊆ b.objects := by
  induction h with
  | refl => exact List.Subset.refl _
  | tail _ h ih => exact List.Subset.trans ih h.objects_subset

theorem mem_objects {root : Node} {o : Object} (h : o.node.Within root) : o ∈ root.objects := by
  refine h.objects_subset ?_
  change o ∈ objects (.object o.entries o.range)
  rw [objects]
  exact List.mem_cons_self

/-! ## How many they are -/

mutual

theorem length_objects_le : ∀ node : Node, node.objects.length ≤ node.count
  | .literal _ => Nat.zero_le _
  | .array items _ => by
    rw [objects, count]
    have := length_objectsAmong_le items
    omega
  | .object entries _ => by
    rw [objects, count, List.length_cons]
    have := length_objectsUnder_le entries
    omega

theorem length_objectsAmong_le :
    ∀ items : List Node, (objectsAmong items).length ≤ itemCount items
  | [] => Nat.le_refl _
  | item :: rest => by
    rw [objectsAmong, itemCount, List.length_append]
    have := length_objects_le item
    have := length_objectsAmong_le rest
    omega

theorem length_objectsUnder_le :
    ∀ entries : List (Key × Node), (objectsUnder entries).length ≤ entryCount entries
  | [] => Nat.le_refl _
  | (_, value) :: rest => by
    rw [objectsUnder, entryCount, List.length_append]
    have := length_objects_le value
    have := length_objectsUnder_le rest
    omega

end

theorem length_objectsUnder_lt {entries : List (Key × Node)} {entry : Key × Node}
    (he : entry ∈ entries) (h : entry.2.objects.length < entry.2.count) :
    (objectsUnder entries).length < entryCount entries := by
  induction entries with
  | nil => cases he
  | cons head rest ih =>
    obtain ⟨key, value⟩ := head
    rw [objectsUnder, entryCount, List.length_append]
    rcases List.mem_cons.1 he with rfl | he
    · have := length_objectsUnder_le rest
      simp only at h
      omega
    · have := length_objects_le value
      have := ih he
      omega

theorem Child.length_objects_lt {a b : Node} (hc : Child a b)
    (h : a.objects.length < a.count) : b.objects.length < b.count := by
  cases hc with
  | @item items _ _ hm =>
    -- the array itself is no object
    rw [objects, count]
    have := length_objectsAmong_le items
    omega
  | value hm =>
    rw [objects, count, List.length_cons]
    have := length_objectsUnder_lt hm h
    omega

/-- A document that holds a value has more nodes than objects. -/
theorem length_objects_lt {root : Node} {l : Literal} (h : (Node.literal l).Within root) :
    root.objects.length < root.count := by
  induction h with
  | refl => exact Nat.zero_lt_one
  | tail _ hc ih => exact hc.length_objects_lt ih

end ServiceModel.Node
