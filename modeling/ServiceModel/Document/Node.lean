/-
The tree of a document: values, arrays and objects, each with the span of text it was read from.
An object keeps its entries in order, with repetitions; looking a name up finds the first entry.
-/
import ServiceModel.Primitive
import ServiceModel.Text.Range

namespace ServiceModel

open Text (Range Position)

/-- A value in a document. -/
structure Literal where
  value : Primitive
  range : Range
  deriving DecidableEq, Repr, Inhabited

/-- The name of an entry. -/
structure Key where
  name : String
  range : Range
  deriving DecidableEq, Repr, Inhabited

/-- A node of a document. -/
inductive Node where
  | literal (literal : Literal)
  | array (items : List Node) (range : Range)
  | object (entries : List (Key × Node)) (range : Range)
  deriving Repr, Inhabited

/-- An object node. -/
structure Object where
  entries : List (Key × Node)
  range : Range
  deriving Repr, Inhabited

namespace Node

/-- The span of a node. -/
def range : Node → Range
  | .literal l => l.range
  | .array _ range => range
  | .object _ range => range

/-- The written span of a node. -/
def loc (node : Node) : String := node.range.encode

/-- The object that a node is. -/
def object? : Node → Option Object
  | .object entries range => some ⟨entries, range⟩
  | _ => none

/-- The items of the array that a node is. -/
def items? : Node → Option (List Node)
  | .array items _ => some items
  | _ => none

mutual

/-- How many nodes a tree has. -/
def count : Node → Nat
  | .literal _ => 1
  | .array items _ => itemCount items + 1
  | .object entries _ => entryCount entries + 1

def itemCount : List Node → Nat
  | [] => 0
  | item :: rest => item.count + itemCount rest

def entryCount : List (Key × Node) → Nat
  | [] => 0
  | (_, value) :: rest => value.count + entryCount rest

end

theorem count_pos (node : Node) : 0 < node.count := by
  cases node <;> simp [count]

theorem count_le_itemCount {items : List Node} {item : Node} (h : item ∈ items) :
    item.count ≤ itemCount items := by
  induction items with
  | nil => cases h
  | cons head rest ih =>
    rw [itemCount]
    rcases List.mem_cons.1 h with rfl | h
    · omega
    · have := ih h
      omega

theorem count_le_entryCount {entries : List (Key × Node)} {entry : Key × Node}
    (h : entry ∈ entries) : entry.2.count ≤ entryCount entries := by
  induction entries with
  | nil => cases h
  | cons head rest ih =>
    obtain ⟨key, value⟩ := head
    rw [entryCount]
    rcases List.mem_cons.1 h with rfl | h
    · simp only
      omega
    · have := ih h
      omega

mutual

/-- The plain value of a node. Of entries with one name the last value counts, at the place of
the first. -/
def toJson : Node → Json
  | .literal l => l.value.toJson
  | .array items _ => .array (itemsToJson items)
  | .object entries _ => .object (entriesToJson entries [])

def itemsToJson : List Node → List Json
  | [] => []
  | item :: rest => item.toJson :: itemsToJson rest

def entriesToJson : List (Key × Node) → List (String × Json) → List (String × Json)
  | [], members => members
  | (key, value) :: rest, members =>
    entriesToJson rest (Json.put key.name value.toJson members)

end

end Node

namespace Literal

/-- The written span of a value. -/
def loc (l : Literal) : String := l.range.encode

/-- The value as a text. -/
def text (l : Literal) : String := l.value.asText

end Literal

namespace Key

/-- The written span of a name. -/
def loc (k : Key) : String := k.range.encode

end Key

namespace Object

/-- The object as a node. -/
def node (o : Object) : Node := .object o.entries o.range

/-- The written span of an object. -/
def loc (o : Object) : String := o.range.encode

/-- How many nodes stand below the object. -/
def size (o : Object) : Nat := Node.entryCount o.entries

/-- The names of the entries, in order and with repetitions. -/
def keys (o : Object) : List String := o.entries.map (·.1.name)

/-- The names of the entries in order of their first occurrence. -/
def distinctKeys (o : Object) : List String := o.keys.eraseDups

/-- The first entry with a name. -/
def entry? (o : Object) (name : String) : Option (Key × Node) :=
  o.entries.find? (·.1.name == name)

/-- The value of the first entry with a name. -/
def value? (o : Object) (name : String) : Option Node := (o.entry? name).map (·.2)

/-- The written span of the name of an entry. -/
def keyLoc? (o : Object) (name : String) : Option String := (o.entry? name).map (·.1.loc)

/-- The span of an entry, from the start of its name to the end of its value. -/
def entryRange (entry : Key × Node) : Range := ⟨entry.1.range.start, entry.2.range.stop⟩

/-- The written span of an entry. -/
def entryLoc? (o : Object) (name : String) : Option String :=
  (o.entry? name).map fun entry => (entryRange entry).encode

end Object

end ServiceModel
