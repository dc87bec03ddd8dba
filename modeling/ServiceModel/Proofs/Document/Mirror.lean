/-
Nodes that mirror each other: one value, related items, or entries with the same names and related
values, one by one and with any repetitions. They have one plain value up to their spans, and
whatever is read from them is related.
-/
import ServiceModel.Proofs.Document.Pairing

namespace ServiceModel

open Service

/-- Two nodes of one form, whose parts are related one by one. -/
inductive NodesAlike (nodes : Node → Node → Prop) (spans : String → String → Prop) :
    Node → Node → Prop
  | literal {value : Primitive} {range range' : Text.Range} :
      NodesAlike nodes spans (.literal ⟨value, range⟩) (.literal ⟨value, range'⟩)
  | array {items items' : List Node} {range range' : Text.Range} :
      List.Forall₂ nodes items items' →
      NodesAlike nodes spans (.array items range) (.array items' range')
  | object {entries entries' : List (Key × Node)} {range range' : Text.Range} :
      List.Forall₂ (EntriesAlike nodes spans) entries entries' →
      NodesAlike nodes spans (.object entries range) (.object entries' range')

/-- A relation that goes from nodes to their parts, one by one, with the spans that correspond. -/
structure Mirrors (nodes : Node → Node → Prop) (spans : String → String → Prop) : Prop where
  alike : ∀ {n n'}, nodes n n' → NodesAlike nodes spans n n'
  span : ∀ {n n'}, nodes n n' → spans n.loc n'.loc

namespace Mirrors

variable {nodes : Node → Node → Prop} {spans : String → String → Prop}

/-! ## Plain values -/

mutual

theorem toJson_eq (m : Mirrors nodes spans) : ∀ {n n' : Node}, nodes n n' → n.toJson = n'.toJson
  | .literal l, _, h => by
    cases m.alike h
    rfl
  | .array items range, _, h => by
    cases m.alike h with
    | array hi =>
      rw [Node.toJson, Node.toJson, itemsToJson_eq m hi]
  | .object entries range, _, h => by
    cases m.alike h with
    | object he =>
      rw [Node.toJson, Node.toJson, entriesToJson_eq m he]

theorem itemsToJson_eq (m : Mirrors nodes spans) :
    ∀ {items items' : List Node}, List.Forall₂ nodes items items' →
    Node.itemsToJson items = Node.itemsToJson items'
  | [], _, h => by
    cases h
    rfl
  | item :: rest, _, h => by
    cases h with
    | cons head tail =>
      rw [Node.itemsToJson, Node.itemsToJson, toJson_eq m head, itemsToJson_eq m tail]

theorem entriesToJson_eq (m : Mirrors nodes spans) :
    ∀ {entries entries' : List (Key × Node)} {members : List (String × Json)},
    List.Forall₂ (EntriesAlike nodes spans) entries entries' →
    Node.entriesToJson entries members = Node.entriesToJson entries' members
  | [], _, _, h => by
    cases h
    rfl
  | (key, value) :: rest, (key', value') :: rest', members, h => by
    cases h with
    | cons head tail =>
      have name : key.name = key'.name := head.name
      rw [Node.entriesToJson, Node.entriesToJson, name, toJson_eq m head.value,
        entriesToJson_eq m tail]

end

/-! ## Objects -/

variable (m : Mirrors nodes spans) {o o' : Object}

include m

theorem entries (h : nodes o.node o'.node) :
    List.Forall₂ (EntriesAlike nodes spans) o.entries o'.entries := by
  cases m.alike h with
  | object he => exact he

theorem ofExtension {e e' : Key × Node} (h : EntriesAlike nodes spans e e') :
    MetaValue.Alike spans (MetaValue.ofExtension e) (MetaValue.ofExtension e') where
  key := ⟨by rw [MetaValue.ofExtension, MetaValue.ofExtension, h.name], .some h.key⟩
  value := ⟨m.toJson_eq h.value, .some (m.span h.value)⟩

theorem metadata (h : nodes o.node o'.node) : MetadataAlike spans o.metadata o'.metadata := by
  have kept : List.Forall₂ (EntriesAlike nodes spans) o.extensions o'.extensions := by
    refine List.rel_filter (fun e e' he => ?_) (m.entries h)
    simp only [he.name]
  unfold Object.metadata
  generalize o.extensions = es, o'.extensions = es' at kept ⊢
  cases kept with
  | nil => exact .none
  | cons head tail => exact .some (List.rel_map (fun _ _ he => m.ofExtension he) (.cons head tail))

/-- Of two objects that mirror each other the same is read. -/
theorem objectsRead (h : nodes o.node o'.node) : ObjectsRead nodes spans o o' where
  names := by
    rw [Object.distinctKeys, Object.distinctKeys, Object.keys, Object.keys,
      map_eq_of_forall₂ (m.entries h) fun _ _ he => he.name]
  entry name := rel_find? (m.entries h) fun _ _ he => congrArg (· == name) he.name
  metadata := m.metadata h

theorem reads {n n' : Node} (h : nodes n n') : NodesRead nodes spans n n' := by
  have alike := m.alike h
  cases alike with
  | literal => exact .literal
  | array hi => exact .array hi
  | object _ => exact .object (m.objectsRead h)

end Mirrors

end ServiceModel
