/-
Typed access to the entries of an object. An entry that is absent is no error; one that has a
shape other than the one asked for is one only where its absence would be.
-/
import ServiceModel.Failure

namespace ServiceModel

namespace Node

/-- Where a node starts. -/
def start (node : Node) : Text.Position := node.range.start

/-- The object that a node has to be. -/
def asObject (node : Node) (what : String) : Except Failure Object :=
  match node.object? with
  | some o => .ok o
  | none => .error (.shape (.notObject what node.start))

/-- The value that a node has to be. -/
def asLiteral (node : Node) : Except Failure Literal :=
  match node with
  | .literal l => .ok l
  | _ => .error (.shape (.notLiteral node.start))

end Node

namespace Object

/-- Where an object starts. -/
def start (o : Object) : Text.Position := o.range.start

/-- The value under a name, if there is one and it has no parts. -/
def literal? (o : Object) (name : String) : Option Literal :=
  match o.value? name with
  | some (.literal l) => some l
  | _ => none

/-- The text under a name. -/
def text? (o : Object) (name : String) : Option Literal :=
  match o.literal? name with
  | some l =>
    match l.value with
    | .text _ => some l
    | _ => none
  | none => none

/-- The number under a name. -/
def number? (o : Object) (name : String) : Option Literal :=
  (o.literal? name).filter (·.value.isNumber)

/-- The text that has to stand under a name. -/
def requireText (o : Object) (name what : String) : Except Failure Literal :=
  match o.text? name with
  | some l => .ok l
  | none => .error (.shape (.missingText name what o.start))

/-- What the node under a name is read as. -/
def child {α : Type} (o : Object) (name : String) (read : Node → Except Failure α) :
    Except Failure (Option α) :=
  match o.value? name with
  | some node =>
    match read node with
    | .ok value => .ok (some value)
    | .error e => .error e
  | none => .ok none

/-- What each item of the array under a name is read as. -/
def array {α : Type} (o : Object) (name : String) (read : Node → Except Failure α) :
    Except Failure (Option (List α)) :=
  match o.value? name with
  | some (.array items _) =>
    match items.mapM read with
    | .ok values => .ok (some values)
    | .error e => .error e
  | some node => .error (.shape (.notArray name node.start))
  | none => .ok none

/-- The values in the array under a name. -/
def literals (o : Object) (name : String) : Except Failure (Option (List Literal)) :=
  o.array name fun node =>
    match node with
    | .literal l => .ok l
    | _ => .error (.shape (.notLiterals name node.start))

/-- The object under a name, whose entries are read one by one. -/
def index (o : Object) (name : String) : Except Failure (Option Object) :=
  o.child name (·.asObject ("'" ++ name ++ "'"))

/-- What the first entry with a name is read as. -/
def readEntry {α : Type} (o : Object) (name : String) (read : Node → Except Failure α) :
    Except Failure (Option α) :=
  o.child name read

/-- The mark of names that the description language leaves to its users. -/
def extensionMark : String := "x-"

/-- The entries whose names have that mark. -/
def extensions (o : Object) : List (Key × Node) :=
  o.entries.filter fun entry => extensionMark.toList.isPrefixOf entry.1.name.toList

end Object

end ServiceModel
