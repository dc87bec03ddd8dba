/-
Two documents in which the same is reached: every pointer of a reference among some nodes of the
first one leads to the same entry in the second one. Where neither a step down nor a reference
leaves these nodes, the references among them have the same targets in both documents, whatever
else is different.
-/
import ServiceModel.OpenApi.Rules
import ServiceModel.Proofs.Document.Chain

namespace ServiceModel

open Service

/-- A reference that is read stands where it is read. -/
theorem OrReference.node_of_reference {α : Type} {read : Node → Except Failure α} {n : Node}
    {r : Reference} (h : OrReference.ofNode read n = .ok (.reference r)) : r.object.node = n := by
  unfold OrReference.ofNode at h
  split at h
  · obtain ⟨r', hr, h⟩ := read_bind_ok h
    cases h
    exact View.reads_reference n r hr
  · obtain ⟨a, -, h⟩ := read_bind_ok h
    cases h

/-! ## Nodes that are not left -/

/-- Nodes of a document that neither a step down nor a reference leaves. -/
structure Node.Closed (root : Node) (P : Node → Prop) : Prop where
  below : ∀ {n m : Node}, P n → m.Within n → P m
  resolve : ∀ {r : Reference} {pointer : String} {n : Node}, P r.object.node →
    r.pointer = .ok pointer → root.resolve pointer = .ok n → P n

/-- A document is not left from any node in it. -/
theorem Node.closed_within (root : Node) : root.Closed (·.Within root) where
  below h within := within.trans h
  resolve _ _ h := Node.resolve_within h

namespace Node.Closed

variable {α : Type} {root : Node} {P : Node → Prop} (closed : root.Closed P) {r : Reference}

include closed

theorem leads {seen : List String} {pointer : String} {n : Node}
    (h : Reference.Leads root seen pointer (.ok n)) (hr : P r.object.node)
    (hp : r.pointer = .ok pointer) : P n := by
  generalize ends : (Except.ok n : Except Failure Node) = result at h
  induction h generalizing r with
  | landed _ hn _ => cases ends; exact closed.resolve hr hp hn
  | next _ hn _ ht _ ih =>
    obtain ⟨next, ho, ht⟩ := read_bind_ok ht
    have landed : next.object.node = _ := View.reads_reference _ _ ho
    exact ih (landed ▸ closed.resolve hr hp hn) ht ends
  | _ => cases ends

theorem target {n : Node} (hr : P r.object.node) (h : r.target root = .ok n) : P n := by
  cases hp : r.pointer with
  | error e => rw [Reference.target_eq_follow, hp] at h; cases h
  | ok pointer => exact closed.leads (h ▸ Reference.leads_target hp) hr hp

theorem view [View α] {read : Node → Except Failure α} (reads : View.Reads read)
    {source : OrReference α} (hs : P (View.node source)) {a : α}
    (h : source.resolve root read = .ok a) : P (View.node a) := by
  cases source with
  | inline b => cases h; exact hs
  | reference r =>
    obtain ⟨n, ht, h⟩ := read_bind_ok h
    split at h
    · rw [reads n a h]
      exact closed.target hs ht
    · obtain ⟨p, -, h⟩ := read_bind_ok h
      cases h

theorem schema {source : SchemaOrReference} (hs : P (View.node source)) {s : Schema}
    (h : source.resolve root = .ok s) : P (View.node s) := by
  cases source with
  | inline t => cases h; exact hs
  | reference r =>
    obtain ⟨n, ht, h⟩ := read_bind_ok h
    split at h
    · rename_i found
      cases h
      show P s.node.node
      rw [Schema.classify_eq_some found]
      exact closed.target hs ht
    · obtain ⟨p, -, h⟩ := read_bind_ok h
      cases h

end Node.Closed

/-- Among some nodes of the first document, which are not left, the pointers of references lead to
the same entries in the second document. -/
structure Node.SameReach (root root' : Node) (P : Node → Prop) : Prop where
  closed : root.Closed P
  entryAt : ∀ {r : Reference} {pointer : String}, P r.object.node → r.pointer = .ok pointer →
    root.entryAt pointer = root'.entryAt pointer

namespace Node.SameReach

variable {α : Type} {root root' : Node} {P : Node → Prop} (same : root.SameReach root' P)
  {r : Reference} {pointer : String}

include same

/-! ## References -/

theorem resolvePointer (hr : P r.object.node) (hp : r.pointer = .ok pointer) :
    root.resolve pointer = root'.resolve pointer := by
  rw [Node.resolve, Node.resolve, same.entryAt hr hp]

theorem pointerLoc (hr : P r.object.node) (hp : r.pointer = .ok pointer) :
    root.pointerLoc pointer = root'.pointerLoc pointer := by
  rw [Node.pointerLoc, Node.pointerLoc, same.entryAt hr hp]

/-- A chain of references is the same in both documents, since it never leaves the nodes. -/
theorem leads {seen : List String} {result : Except Failure Node}
    (h : Reference.Leads root seen pointer result) (hr : P r.object.node)
    (hp : r.pointer = .ok pointer) : Reference.Leads root' seen pointer result := by
  induction h generalizing r with
  | cycle hs => exact .cycle hs
  | lost hs hn => exact .lost hs (by rw [← same.resolvePointer hr hp]; exact hn)
  | landed hs hn hi => exact .landed hs (by rw [← same.resolvePointer hr hp]; exact hn) hi
  | unnamed hs hn hi ht => exact .unnamed hs (by rw [← same.resolvePointer hr hp]; exact hn) hi ht
  | next hs hn hi ht _ ih =>
    refine .next hs (by rw [← same.resolvePointer hr hp]; exact hn) hi ht ?_
    obtain ⟨next, ho, ht⟩ := read_bind_ok ht
    have landed : next.object.node = _ := View.reads_reference _ _ ho
    exact ih (landed ▸ same.closed.resolve hr hp hn) ht

theorem target (hr : P r.object.node) : r.target root = r.target root' := by
  cases hp : r.pointer with
  | error e => rw [Reference.target_eq_follow, Reference.target_eq_follow, hp]; rfl
  | ok pointer =>
    exact (same.leads (Reference.leads_target hp) hr hp).unique (Reference.leads_target hp)

theorem resolve [View α] {read : Node → Except Failure α} {source : OrReference α}
    (hs : P (View.node source)) : source.resolve root read = source.resolve root' read := by
  cases source with
  | inline a => rfl
  | reference r => rw [OrReference.resolve, OrReference.resolve, same.target hs]

theorem resolveScheme {source : OrReference SecurityScheme}
    (hs : ∀ r, source = .reference r → P r.object.node) :
    SecurityScheme.resolve root source = SecurityScheme.resolve root' source := by
  cases source with
  | inline a => rfl
  | reference r => rw [SecurityScheme.resolve, SecurityScheme.resolve, same.target (hs r rfl)]

/-! ## Schemas -/

theorem resolveSchema {source : SchemaOrReference} (hs : P (View.node source)) :
    source.resolve root = source.resolve root' := by
  cases source with
  | inline s => rfl
  | reference r => rw [SchemaOrReference.resolve, SchemaOrReference.resolve, same.target hs]

theorem rules {s : Schema} (hs : P (View.node s)) : s.rules root = s.rules root' := by
  have items : s.itemRules root = s.itemRules root' := by
    cases s with
    | array a =>
      rw [Schema.itemRules, Schema.itemRules]
      refine read_bind_congr fun found hi => ?_
      cases found with
      | none => rfl
      | some items =>
        dsimp only
        rw [same.resolveSchema (same.closed.below hs (ArraySchema.items_below hi).within)]
    | _ => rfl
  rw [Schema.rules, Schema.rules, items]

theorem rulesWhen {s : Schema} (hs : P (View.node s)) (isRequired : Bool) :
    s.rulesWhen root isRequired = s.rulesWhen root' isRequired := by
  rw [Schema.rulesWhen, Schema.rulesWhen, same.rules hs]

end Node.SameReach

end ServiceModel
