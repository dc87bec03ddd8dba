/-
Reading a document: a text in the markup language, of which JSON is a part, becomes a tree of
values, arrays and objects. The names of entries are their text and are never typed.
-/
import ServiceModel.Document.Node
import ServiceModel.Yaml.Lexer
import ServiceModel.Yaml.Scalar

namespace ServiceModel

open Text (Range Position)

/-- Why a text is no document. -/
inductive ReadError where
  /-- The text holds a character that no text may hold. -/
  | character
  /-- The text holds no document. -/
  | empty
  /-- The text breaks a rule of its language, or a scalar does not fit its tag. -/
  | fault (fault : Yaml.Fault)
  /-- A node contains itself by an alias. -/
  | recursion (start : Position)
  /-- The name of an entry is no scalar. -/
  | complexKey (start : Position)
  deriving DecidableEq, Repr

namespace ReadError

/-- What is wrong with the text. -/
def message : ReadError → String
  | .character => "unacceptable character"
  | .empty => "Document is empty"
  | .fault _ => "Malformed document"
  | .recursion p => s!"Recursive alias at line {p.line}, column {p.column}"
  | .complexKey p => s!"Unsupported complex mapping key at line {p.line}, column {p.column}"

/-- Has the error a report of its own? A character that no text may hold, and a scalar that does
not fit its tag, have none. -/
def isReported : ReadError → Bool
  | .character => false
  | .fault .malformed => true
  | .fault _ => false
  | _ => true

end ReadError

namespace Node

/-- The start of a markup node. -/
def startOf : Yaml.Node → Position
  | .scalar _ _ range => range.start
  | .sequence _ range => range.start
  | .mapping _ range => range.start
  | .cycle start => start

mutual

/-- The document node of a markup node, errors being met in document order. -/
def ofYaml : Yaml.Node → Except ReadError Node
  | .scalar text tag range =>
    match Yaml.Scalar.value (range.start.offset.toNat + 1) tag text with
    | .ok value => .ok (.literal ⟨value, range⟩)
    | .error fault => .error (.fault fault)
  | .sequence items range =>
    match ofItems items with
    | .ok items => .ok (.array items range)
    | .error e => .error e
  | .mapping entries range =>
    match ofEntries entries with
    | .ok entries => .ok (.object entries range)
    | .error e => .error e
  | .cycle start => .error (.recursion start)

def ofItems : List Yaml.Node → Except ReadError (List Node)
  | [] => .ok []
  | item :: rest =>
    match ofYaml item with
    | .error e => .error e
    | .ok node =>
      match ofItems rest with
      | .ok nodes => .ok (node :: nodes)
      | .error e => .error e

def ofEntries : List (Yaml.Node × Yaml.Node) → Except ReadError (List (Key × Node))
  | [] => .ok []
  | (.scalar text _ range, value) :: rest =>
    match ofYaml value with
    | .error e => .error e
    | .ok node =>
      match ofEntries rest with
      | .ok entries => .ok ((⟨text, range⟩, node) :: entries)
      | .error e => .error e
  | (key, _) :: _ => .error (.complexKey (startOf key))

end

/-- A text that looks like JSON may have tabs wherever JSON allows blanks; they count as spaces. -/
def untabbed (text : List Char) : List Char :=
  match text.dropWhile Text.isSpace with
  | c :: _ =>
    if c = '{' || c = '[' then text.map fun d => if d = '\t' then ' ' else d else text
  | [] => text

/-- The tree of a text. -/
def read (text : String) : Except ReadError Node :=
  let chars := untabbed text.toList
  if !chars.all Yaml.isAllowed then .error .character
  else match Yaml.Node.ofTokens (Yaml.Token.ofText chars) with
    | .error fault => .error (.fault fault)
    | .ok none => .error .empty
    | .ok (some node) => ofYaml node

end Node

end ServiceModel
