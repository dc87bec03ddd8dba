/-
A document paired with itself. Each node is related to itself and a span has to be one of the
document: that of a node, of the name of an entry, or of a whole entry. What is read twice is then
alike, which says of the single reading that every span in it is one of the document.
-/
import ServiceModel.Proofs.Document.Mirror

namespace ServiceModel

namespace Node

/-- The spans of what stands in a document. An entry reaches from the start of its name to the end
of its value. -/
inductive Spans (root : Node) : Text.Range → Prop
  | node {n : Node} : n.Within root → Spans root n.range
  | key {o : Object} {entry : Key × Node} : o.node.Within root → entry ∈ o.entries →
      Spans root entry.1.range
  | entry {o : Object} {entry : Key × Node} : o.node.Within root → entry ∈ o.entries →
      Spans root (Object.entryRange entry)

/-- The text is the written span of something in the document. -/
def Locates (root : Node) (loc : String) : Prop := ∃ range, root.Spans range ∧ loc = range.encode

variable {root : Node}

theorem Spans.locates {range : Text.Range} (h : root.Spans range) : root.Locates range.encode :=
  ⟨range, h, rfl⟩

/-- Parts of a node are related to themselves if they are within the document. -/
theorem nodesAlike_self {n : Node} (h : n.Within root) :
    NodesAlike (fun n n' => n = n' ∧ n.Within root) (fun loc _ => root.Locates loc) n n := by
  cases n with
  | literal l => exact .literal
  | array items range =>
    have child : ∀ item ∈ items, item = item ∧ item.Within root := fun item hi =>
      ⟨rfl, (Child.item hi).within.trans h⟩
    exact .array (List.forall₂_same.2 child)
  | object entries range =>
    refine .object (List.forall₂_same.2 fun entry he => ?_)
    have inside : (Object.mk entries range).node.Within root := h
    exact {
      name := rfl
      value := ⟨rfl, (Child.value he).within.trans h⟩
      key := (Spans.key inside he).locates
      whole := (Spans.entry inside he).locates }

/-- A document mirrors itself. -/
theorem mirrors_self (root : Node) :
    Mirrors (fun n n' => n = n' ∧ n.Within root) (fun loc _ => root.Locates loc) where
  alike := by
    rintro n _ ⟨rfl, h⟩
    exact nodesAlike_self h
  span := by
    rintro n _ ⟨rfl, h⟩
    exact (Spans.node h).locates

end Node

namespace Pairing

/-- The document with itself, under a limit and with failures that allow for what is read. -/
def diagonal (root : Node) (limit : Int) (fails : Failure → Prop)
    (reading : ∀ {e : Failure}, e.OfReading → fails e)
    (tooDeep : ∀ {key}, limit ≤ root.objects.length → fails (.cycle (.tooDeep limit key))) :
    Pairing root root where
  nodes n n' := n = n' ∧ n.Within root
  spans loc _ := root.Locates loc
  fails := fails
  limit := limit
  roots := ⟨rfl, .refl root⟩
  within := by
    rintro n _ ⟨rfl, h⟩
    exact ⟨h, h⟩
  alike := root.mirrors_self.reads
  walked _ _ := root.mirrors_self.entries
  span := root.mirrors_self.span
  same_place := by
    rintro o q o' q' ⟨ho, -⟩ ⟨hq, -⟩
    have range : o.range = o'.range := congrArg Node.range ho
    have range' : q.range = q'.range := congrArg Node.range hq
    rw [range, range']
  reading := reading
  tooDeep := fun h => tooDeep (h.elim id id)
  plain := rfl

end Pairing

end ServiceModel
