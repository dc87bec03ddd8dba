/-
Pointers into a document: a number sign and then, after a slash each, the names that lead from
the root to a node. Inside a name a tilde is written `~0` and a slash `~1`. Only the entries of
objects can be stepped into, and of entries with one name the first.
-/
import ServiceModel.Failure
import ServiceModel.Text.Split

namespace ServiceModel

namespace Pointer

open Text (cut)

/-- A name as it is written in a pointer. -/
def escape : List Char → List Char
  | [] => []
  | c :: rest =>
    if c = '~' then '~' :: '0' :: escape rest
    else if c = '/' then '~' :: '1' :: escape rest
    else c :: escape rest

/-- The name that is written in a pointer; a tilde before any other character stands for itself. -/
def unescape : List Char → List Char
  | '~' :: '0' :: rest => '~' :: unescape rest
  | '~' :: '1' :: rest => '/' :: unescape rest
  | c :: rest => c :: unescape rest
  | [] => []

/-- The pointer to the node that the names lead to. -/
def ofKeys (keys : List String) : String :=
  String.ofList ('#' :: keys.flatMap fun key => '/' :: escape key.toList)

/-- The names that a pointer consists of. -/
def keys (pointer : String) : Except Failure (List String) :=
  match pointer.toList with
  | ['#'] => .ok []
  | '#' :: '/' :: body => .ok ((cut '/' body).map fun key => String.ofList (unescape key))
  | '#' :: _ => .error (.pointer (.unresolvable pointer))
  | _ => .error (.pointer (.notLocal pointer))

/-- The entry that names lead to from an object entry, the entry itself if there are none. -/
def walk (entry : Key × Node) : List String → Option (Key × Node)
  | [] => some entry
  | key :: rest =>
    match entry.2.object? with
    | none => none
    | some o =>
      match o.entry? key with
      | none => none
      | some next => walk next rest

end Pointer

namespace Node

/-- The entry that a pointer leads to. The root counts as an entry whose name spans the root. -/
def entryAt (root : Node) (pointer : String) : Except Failure (Key × Node) :=
  match Pointer.keys pointer with
  | .error e => .error e
  | .ok keys =>
    match Pointer.walk (⟨"", root.range⟩, root) keys with
    | some entry => .ok entry
    | none => .error (.pointer (.unresolvable pointer))

/-- The node that a pointer leads to. -/
def resolve (root : Node) (pointer : String) : Except Failure Node :=
  match root.entryAt pointer with
  | .ok entry => .ok entry.2
  | .error e => .error e

/-- The written span of the name that a pointer ends on, or of the whole root. -/
def pointerLoc (root : Node) (pointer : String) : Except Failure String :=
  match root.entryAt pointer with
  | .ok entry => .ok entry.1.loc
  | .error e => .error e

end Node

end ServiceModel
