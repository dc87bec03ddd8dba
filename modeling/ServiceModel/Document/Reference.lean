/-
References: objects that stand for the node a pointer leads to. Following a reference goes on
while it lands on another one, and ends because a pointer that was followed before is an error.
-/
import ServiceModel.Document.Fields
import ServiceModel.Document.Pointer

namespace ServiceModel

/-- The name under which a reference holds its pointer. -/
def referenceName : String := "$ref"

/-- An object that stands for another node. -/
structure Reference where
  object : Object
  deriving Repr, Inhabited

/-- Something written in place or referred to. -/
inductive OrReference (α : Type) where
  | inline (value : α)
  | reference (reference : Reference)
  deriving Repr

namespace Node

/-- Is the node a reference? What stands under the name has to be a value, not yet a text. -/
def isReference (node : Node) : Bool :=
  match node.object? with
  | some o => (o.literal? referenceName).isSome
  | none => false

mutual

/-- How many references a node holds, itself included. -/
def referenceCount : Node → Nat
  | .literal _ => 0
  | .array items _ => itemReferences items
  | .object entries range =>
    (if isReference (.object entries range) then 1 else 0) + entryReferences entries

def itemReferences : List Node → Nat
  | [] => 0
  | item :: rest => item.referenceCount + itemReferences rest

def entryReferences : List (Key × Node) → Nat
  | [] => 0
  | (_, value) :: rest => value.referenceCount + entryReferences rest

end

end Node

namespace Reference

/-- The reference that a node has to be. -/
def ofNode (node : Node) : Except Failure Reference := do
  return ⟨← node.asObject "reference"⟩

/-- The pointer of a reference, with its place. -/
def literal (r : Reference) : Except Failure Literal :=
  r.object.requireText referenceName "reference"

/-- The pointer of a reference. -/
def pointer (r : Reference) : Except Failure String := do
  return (← r.literal).text

/-- The node at the end of the chain that starts with a pointer, after those of `seen`. A document
with `fuel` references left has no longer chain. -/
def follow (root : Node) (seen : List String) (pointer : String) : Nat → Except Failure Node
  | 0 => .error (.cycle (.chain (seen ++ [pointer])))
  | fuel + 1 =>
    if seen.contains pointer then .error (.cycle (.chain (seen ++ [pointer])))
    else
      match root.resolve pointer with
      | .error e => .error e
      | .ok node =>
        if node.isReference then
          match ofNode node with
          | .error e => .error e
          | .ok next =>
            match next.pointer with
            | .error e => .error e
            | .ok target => follow root (seen ++ [pointer]) target fuel
        else .ok node

/-- The node that a reference stands for. How many references the document holds matters only
where one lands on another. -/
def target (root : Node) (r : Reference) : Except Failure Node := do
  let pointer ← r.pointer
  let node ← root.resolve pointer
  if node.isReference then
    let next ← ofNode node
    follow root [pointer] (← next.pointer) (root.referenceCount + 1)
  else return node

/-- The first step is like the others. -/
theorem target_eq_follow (root : Node) (r : Reference) :
    r.target root = r.pointer >>= fun pointer =>
      follow root [] pointer (root.referenceCount + 2) := by
  unfold target
  congr 1
  funext pointer
  rw [follow]
  simp only [List.contains_nil, Bool.false_eq_true, if_false, List.nil_append]
  cases root.resolve pointer with
  | error e => rfl
  | ok node =>
    simp only [bind, Except.bind]
    split
    · cases ofNode node with
      | error e => rfl
      | ok next =>
        simp only
        cases next.pointer <;> rfl
    · rfl

end Reference

/-- Reads a reference, or a node in place by `read`. -/
def OrReference.ofNode {α : Type} (read : Node → Except Failure α) (node : Node) :
    Except Failure (OrReference α) :=
  if node.isReference then do return .reference (← Reference.ofNode node)
  else do return .inline (← read node)

/-- What is written in place, or what the object that is referred to is read as. -/
def OrReference.resolve {α : Type} (root : Node) (read : Node → Except Failure α) :
    OrReference α → Except Failure α
  | .inline value => .ok value
  | .reference r => do
    let node ← r.target root
    match node.object? with
    | some _ => read node
    | none => .error (.shape (.targetNotObject (← r.pointer) node.start))

end ServiceModel
