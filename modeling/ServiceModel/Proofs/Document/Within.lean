/-
The nodes of a document. `Below` is "strictly below" and `Within` is "below or the node itself";
a node below another one has fewer nodes. Whatever is read out of an object as a view stands
below that object, and whatever a pointer or a reference leads to stands within the document.
-/
import ServiceModel.OpenApi.Description
import ServiceModel.OpenApi.Size
import ServiceModel.Proofs.Build.Outcome
import Mathlib.Logic.Relation

namespace ServiceModel

open OpenApi

namespace Node

/-! ## Nodes below a node -/

/-- An item of an array, or the value of an entry of an object. -/
inductive Child : Node → Node → Prop
  | item {items : List Node} {range : Text.Range} {node : Node} :
      node ∈ items → Child node (.array items range)
  | value {entries : List (Key × Node)} {range : Text.Range} {entry : Key × Node} :
      entry ∈ entries → Child entry.2 (.object entries range)

/-- Strictly below a node. -/
def Below : Node → Node → Prop := Relation.TransGen Child

/-- Below a node, or the node itself. -/
def Within : Node → Node → Prop := Relation.ReflTransGen Child

theorem Within.refl (node : Node) : node.Within node := Relation.ReflTransGen.refl

theorem Within.trans {a b c : Node} (h : a.Within b) (h' : b.Within c) : a.Within c :=
  Relation.ReflTransGen.trans h h'

theorem Child.below {a b : Node} (h : Child a b) : a.Below b := .single h

theorem Below.within {a b : Node} (h : a.Below b) : a.Within b := Relation.TransGen.to_reflTransGen h

theorem Child.within {a b : Node} (h : Child a b) : a.Within b := h.below.within

theorem Child.count_lt {a b : Node} (h : Child a b) : a.count < b.count := by
  cases h with
  | item h => have := count_le_itemCount h; rw [count]; omega
  | value h => have := count_le_entryCount h; rw [count]; omega

theorem Below.count_lt {a b : Node} (h : a.Below b) : a.count < b.count := by
  induction h with
  | single h => exact h.count_lt
  | tail _ h ih => exact Nat.lt_trans ih h.count_lt

theorem Within.count_le {a b : Node} (h : a.Within b) : a.count ≤ b.count := by
  rcases Relation.reflTransGen_iff_eq_or_transGen.1 h with rfl | h
  · exact Nat.le_refl _
  · exact Nat.le_of_lt (Below.count_lt h)

theorem object?_eq_some {node : Node} {o : Object} (h : node.object? = some o) : o.node = node := by
  cases node with
  | object entries range => cases h; rfl
  | literal l => cases h
  | array items range => cases h

theorem asObject_ok {node : Node} {what : String} {o : Object}
    (h : node.asObject what = .ok o) : o.node = node := by
  unfold asObject at h
  split at h
  · cases h; exact object?_eq_some (by assumption)
  · cases h

end Node

namespace Object

theorem node_injective {o o' : Object} (h : o.node = o'.node) : o = o' := by
  cases o
  cases o'
  cases h
  rfl

theorem entry_child {o : Object} {entry : Key × Node} (h : entry ∈ o.entries) :
    Node.Child entry.2 o.node := .value h

theorem value?_child {o : Object} {name : String} {node : Node} (h : o.value? name = some node) :
    Node.Child node o.node := by
  obtain ⟨entry, found, rfl⟩ := Option.map_eq_some_iff.1 h
  exact entry_child (List.mem_of_find?_eq_some found)

end Object

/-! ## Where pointers and references lead -/

theorem Pointer.walk_within {keys : List String} :
    ∀ {entry found : Key × Node}, Pointer.walk entry keys = some found →
      found.2.Within entry.2 := by
  induction keys with
  | nil => intro entry found h; cases h; exact .refl _
  | cons key rest ih =>
    intro entry found h
    rw [Pointer.walk] at h
    split at h
    · cases h
    · rename_i o ho
      split at h
      · cases h
      · rename_i next hn
        have hc : Node.Child next.2 o.node := Object.entry_child (List.mem_of_find?_eq_some hn)
        rw [Node.object?_eq_some ho] at hc
        exact (ih h).trans hc.within

namespace Node

theorem entryAt_within {root : Node} {pointer : String} {entry : Key × Node}
    (h : root.entryAt pointer = .ok entry) : entry.2.Within root := by
  unfold entryAt at h
  split at h
  · cases h
  · split at h
    · cases h; exact Pointer.walk_within (by assumption)
    · cases h

theorem resolve_within {root node : Node} {pointer : String}
    (h : root.resolve pointer = .ok node) : node.Within root := by
  unfold resolve at h
  split at h
  · cases h; exact entryAt_within (by assumption)
  · cases h

end Node

namespace Reference

theorem follow_within {root node : Node} :
    ∀ {fuel : Nat} {seen : List String} {pointer : String},
      follow root seen pointer fuel = .ok node → node.Within root
  | 0, _, _, h => by rw [follow] at h; cases h
  | fuel + 1, seen, pointer, h => by
    rw [follow] at h
    split at h
    · cases h
    · split at h
      · cases h
      · rename_i landed hl
        split at h
        · split at h
          · cases h
          · split at h
            · cases h
            · exact follow_within h
        · cases h; exact Node.resolve_within hl

theorem target_within {root node : Node} {r : Reference} (h : r.target root = .ok node) :
    node.Within root := by
  rw [target_eq_follow] at h
  cases hp : r.pointer with
  | error e => rw [hp] at h; cases h
  | ok pointer => rw [hp] at h; exact follow_within h

end Reference

/-! ## Views -/

/-- What is a view of an object of the document. -/
class View (α : Type) where
  object : α → Object

namespace View

variable {α : Type} [View α]

/-- The node that a view is a view of. -/
def node (a : α) : Node := (object a).node

/-- Reading gives a view of the node that is read. -/
def Reads (read : Node → Except Failure α) : Prop := ∀ n a, read n = .ok a → node a = n

end View

instance : View Object := ⟨id⟩
instance : View Reference := ⟨Reference.object⟩
instance : View Schema := ⟨Schema.node⟩
instance : View MediaType := ⟨MediaType.object⟩
instance : View Parameter := ⟨Parameter.object⟩
instance : View RequestBody := ⟨RequestBody.object⟩
instance : View Response := ⟨Response.object⟩
instance : View Operation := ⟨Operation.object⟩
instance : View PathItem := ⟨PathItem.object⟩
instance : View Components := ⟨Components.object⟩
instance : View Description := ⟨Description.object⟩

instance {α : Type} [View α] : View (OrReference α) :=
  ⟨fun | .inline a => View.object a | .reference r => r.object⟩

namespace View

variable {α : Type} [View α]

theorem reads_asObject {what : String} {make : Object → α}
    (h : ∀ o, (View.object (make o)).node = o.node) :
    Reads fun n => do return make (← n.asObject what) := by
  intro n a hr
  obtain ⟨o, ho, hr⟩ := read_bind_ok hr
  cases hr
  exact (h o).trans (Node.asObject_ok ho)

theorem reads_reference : Reads Reference.ofNode := reads_asObject fun _ => rfl
theorem reads_mediaType : Reads MediaType.ofNode := reads_asObject fun _ => rfl
theorem reads_parameter : Reads Parameter.ofNode := reads_asObject fun _ => rfl
theorem reads_requestBody : Reads RequestBody.ofNode := reads_asObject fun _ => rfl
theorem reads_response : Reads Response.ofNode := reads_asObject fun _ => rfl
theorem reads_operation : Reads Operation.ofNode := reads_asObject fun _ => rfl
theorem reads_pathItem : Reads PathItem.ofNode := reads_asObject fun _ => rfl
theorem reads_components : Reads Components.ofNode := reads_asObject fun _ => rfl
theorem reads_description : Reads Description.ofNode := reads_asObject fun _ => rfl

theorem reads_orReference {read : Node → Except Failure α} (h : Reads read) :
    Reads (OrReference.ofNode read) := by
  intro n a hr
  unfold OrReference.ofNode at hr
  split at hr
  · obtain ⟨r, hn, hr⟩ := read_bind_ok hr
    cases hr; exact reads_reference n r hn
  · obtain ⟨b, hn, hr⟩ := read_bind_ok hr
    cases hr; exact h n b hn

theorem child_below {read : Node → Except Failure α} (hr : Reads read) {o : Object}
    {name : String} {a : α} (h : o.child name read = .ok (some a)) : (node a).Below o.node := by
  obtain ⟨n, found, ha⟩ := Object.child_eq_ok h
  rw [hr n a ha]
  exact (Object.value?_child found).below

theorem index_below {o index : Object} {name : String} (h : o.index name = .ok (some index)) :
    index.node.Below o.node := by
  obtain ⟨n, found, ha⟩ := Object.child_eq_ok h
  rw [Node.asObject_ok ha]
  exact (Object.value?_child found).below

theorem array_below {read : Node → Except Failure α} (hr : Reads read) {o : Object}
    {name : String} {values : List α} (h : o.array name read = .ok (some values)) {a : α}
    (ha : a ∈ values) : (node a).Below o.node := by
  obtain ⟨items, range, found, n, hn, hread⟩ := Object.array_eq_ok h ha
  rw [hr n a hread]
  exact (Node.Child.item hn).below.trans (Object.value?_child found).below

/-- What is written in place or referred to by a view of the document stands in the document. -/
theorem resolve_within {root : Node} {read : Node → Except Failure α} (hr : Reads read)
    {source : OrReference α} (hs : (node source).Within root) {a : α}
    (h : source.resolve root read = .ok a) : (node a).Within root := by
  cases source with
  | inline b => cases h; exact hs
  | reference r =>
    obtain ⟨n, ht, h⟩ := read_bind_ok h
    split at h
    · rw [hr n a h]; exact Reference.target_within ht
    · obtain ⟨p, -, h⟩ := read_bind_ok h
      cases h

end View

/-! ## Schemas -/

namespace Schema

theorem classify_eq_some {n : Node} {s : Schema} (h : classify n = some s) : s.node.node = n := by
  unfold classify at h
  split at h
  · cases h
  · rename_i o ho
    have hn : o.node = n := Node.object?_eq_some ho
    split at h
    · cases h; exact hn
    · rw [node_of_ofType? h]; exact hn
    · cases h

theorem ofNode_ok {n : Node} {s : Schema} (h : ofNode n = .ok s) : classify n = some s := by
  unfold ofNode at h
  split at h
  · cases h; assumption
  · cases h

theorem reads_ofNode : View.Reads Schema.ofNode := fun _ _ h => classify_eq_some (ofNode_ok h)

/-- The schema is one of the document, sorted by its type. -/
structure Of (root : Node) (s : Schema) : Prop where
  within : s.node.node.Within root
  classified : classify s.node.node = some s

theorem of_classify {root n : Node} {s : Schema} (hn : n.Within root)
    (h : classify n = some s) : s.Of root := by
  have hs := classify_eq_some h
  exact ⟨hs ▸ hn, hs ▸ h⟩

end Schema

namespace SchemaOrReference

/-- The schema or reference is one of the document. -/
def Of (root : Node) : SchemaOrReference → Prop
  | .inline s => s.Of root
  | .reference r => r.object.node.Within root

theorem Of.within {root : Node} {s : SchemaOrReference} (h : Of root s) :
    (View.node s).Within root := by
  cases s with
  | inline s => exact Schema.Of.within h
  | reference r => exact h

theorem of_ofNode {root n : Node} {s : SchemaOrReference} (hn : n.Within root)
    (h : ofNode n = .ok s) : Of root s := by
  unfold ofNode OrReference.ofNode at h
  split at h
  · obtain ⟨r, hr, h⟩ := read_bind_ok h
    cases h
    have same : r.object.node = n := View.reads_reference n r hr
    rw [Of, same]; exact hn
  · obtain ⟨b, hr, h⟩ := read_bind_ok h
    cases h; exact Schema.of_classify hn (Schema.ofNode_ok hr)

theorem of_child {root : Node} {o : Object} {name : String} {s : SchemaOrReference}
    (ho : o.node.Within root) (h : o.child name ofNode = .ok (some s)) : Of root s := by
  obtain ⟨n, hv, hr⟩ := Object.child_eq_ok h
  exact of_ofNode ((Object.value?_child hv).within.trans ho) hr

theorem of_resolve {root : Node} {source : SchemaOrReference} (hs : Of root source) {s : Schema}
    (h : source.resolve root = .ok s) : s.Of root := by
  cases source with
  | inline t => cases h; exact hs
  | reference r =>
    obtain ⟨n, ht, h⟩ := read_bind_ok h
    split at h
    · cases h; exact Schema.of_classify (Reference.target_within ht) (by assumption)
    · obtain ⟨p, -, h⟩ := read_bind_ok h
      cases h

/-- A schema that is found is the one in place, or one of the document. -/
theorem resolve_node {root : Node} {source : SchemaOrReference} {s : Schema}
    (h : source.resolve root = .ok s) :
    s.node.node = View.node source ∨ s.node.node.Within root := by
  cases source with
  | inline t => cases h; exact .inl rfl
  | reference r =>
    obtain ⟨n, ht, h⟩ := read_bind_ok h
    split at h
    · cases h
      exact .inr ((Schema.of_classify (Reference.target_within ht) (by assumption)).within)
    · obtain ⟨p, -, h⟩ := read_bind_ok h
      cases h

end SchemaOrReference

namespace ObjectSchema

theorem member_node {n : Node} {m : OrReference ObjectSchema} (h : member n = .ok (some m)) :
    View.node m.asSchema = n := by
  unfold member at h
  split at h
  · obtain ⟨r, hr, h⟩ := read_bind_ok h
    cases h; exact View.reads_reference n r hr
  · split at h
    · cases h; exact Schema.classify_eq_some (by assumption)
    · cases h

theorem of_member {root n : Node} (hn : n.Within root) {m : OrReference ObjectSchema}
    (h : member n = .ok (some m)) : SchemaOrReference.Of root m.asSchema := by
  have hm := member_node h
  unfold member at h
  split at h
  · obtain ⟨r, -, h⟩ := read_bind_ok h
    cases h
    have same : r.object.node = n := hm
    change r.object.node.Within root
    rw [same]; exact hn
  · split at h
    · cases h; exact Schema.of_classify hn (by assumption)
    · cases h

theorem composition_member {s : ObjectSchema} {name : String}
    {members : List (OrReference ObjectSchema)} (h : s.composition name = .ok (some members))
    {m : OrReference ObjectSchema} (hm : m ∈ members) :
    ∃ n, n.Below s.object.node ∧ member n = .ok (some m) := by
  obtain ⟨found, ha, h⟩ := read_bind_ok h
  cases found with
  | none => cases h
  | some all =>
    cases h
    obtain ⟨o, ho, rfl⟩ := List.mem_filterMap.1 hm
    obtain ⟨items, range, listed, n, hn, hr⟩ := Object.array_eq_ok ha ho
    exact ⟨n, (Node.Child.item hn).below.trans (Object.value?_child listed).below, hr⟩

theorem property_below {s : ObjectSchema} {index : Object} (h : s.properties = .ok (some index))
    {entry : Key × Node} (he : entry ∈ index.entries) : entry.2.Below s.object.node :=
  (Object.entry_child he).below.trans (View.index_below h)

end ObjectSchema

theorem ArraySchema.items_below {s : ArraySchema} {items : SchemaOrReference}
    (h : s.items = .ok (some items)) : (View.node items).Below s.object.node :=
  View.child_below (View.reads_orReference Schema.reads_ofNode) h

end ServiceModel
