/-
From the tokens of a text to its node: scalars, sequences and mappings, with aliases replaced by
the nodes they name. A node spans its properties and its content; a block collection ends where
the next token starts, and an empty node stands where its indicator ends.
-/
import ServiceModel.Yaml.Token

namespace ServiceModel.Yaml

open ServiceModel.Text

/-- What decides the type of a scalar. -/
inductive ScalarTag where
  /-- Its text. -/
  | byText
  /-- It is a text, being written with marks. -/
  | text
  /-- An explicit tag. -/
  | named (tag : String)
  /-- An explicit tag of a text with halves of characters. -/
  | halved (tag : String)
  deriving DecidableEq, Repr

/-- A node of a text. An alias inside the node that it names is a cycle, and holds where that node
starts. -/
inductive Node where
  | scalar (text : String) (tag : ScalarTag) (range : Range)
  | sequence (items : List Node) (range : Range)
  | mapping (entries : List (Node × Node)) (range : Range)
  | cycle (start : Position)
  deriving Repr, Inhabited

/-- What an anchor names: a node, or one that is not complete yet and where it starts. -/
inductive Anchored where
  | complete (node : Node)
  | incomplete (start : Position)
  deriving Repr

/-- The tokens to come, the anchors so far and the shorthands for tags. -/
structure Composer where
  tokens : List Token
  anchors : List (String × Anchored)
  shorthands : List (String × String)
  deriving Repr

/-- What stands in front of a node's content: its anchor, its tag, and the span of both. -/
structure Properties where
  anchor : Option String
  tag : Option String
  span : Option Range
  deriving Repr

namespace Composer

/-- The shorthands that need no declaration. -/
def standardShorthands : List (String × String) :=
  [("!", "!"), ("!!", "tag:yaml.org,2002:")]

/-- The next token; where the text has none, the fault of that place. -/
def peek (c : Composer) : Except Fault Token :=
  match c.tokens with
  | ⟨.fault fault, _, _⟩ :: _ => .error fault
  | token :: _ => .ok token
  | [] => .error .malformed

/-- Past the next token. -/
def next (c : Composer) : Composer := { c with tokens := c.tokens.drop 1 }

/-- Is the next token one of these? -/
def isAt (c : Composer) (kinds : List TokenKind) : Except Fault Bool := do
  let token ← c.peek
  return kinds.contains token.kind

/-- Names a node. -/
def name (c : Composer) (anchor : Option String) (anchored : Anchored) : Composer :=
  match anchor with
  | none => c
  | some a => { c with anchors := (a, anchored) :: c.anchors }

/-- The tag that a shorthand and a rest stand for. -/
def expandTag (c : Composer) (handle : Option String) (suffix : String) : Except Fault String :=
  match handle with
  | none => .ok suffix
  | some h =>
    match c.shorthands.lookup h with
    | some lead => .ok (lead ++ suffix)
    | none => .error .malformed

/-- An anchor and a tag in either order, both optional. -/
def properties (c : Composer) : Except Fault (Properties × Composer) := do
  let first ← c.peek
  match first.kind with
  | .anchor a =>
    let second ← c.next.peek
    match second.kind with
    | .tag handle suffix =>
      let tag ← c.expandTag handle suffix
      return (⟨some a, some tag, some ⟨first.start, second.stop⟩⟩, c.next.next)
    | _ => return (⟨some a, none, some ⟨first.start, first.stop⟩⟩, c.next)
  | .tag handle suffix =>
    let second ← c.next.peek
    let tag ← c.expandTag handle suffix
    match second.kind with
    | .anchor a => return (⟨some a, some tag, some ⟨first.start, second.stop⟩⟩, c.next.next)
    | _ => return (⟨none, some tag, some ⟨first.start, first.stop⟩⟩, c.next)
  | _ => return (⟨none, none, none⟩, c)

/-- What decides the type of a scalar with the given tag and form; a lone exclamation mark asks
for the text to decide. -/
def scalarTag (tag : Option String) (form : ScalarForm) : ScalarTag :=
  match tag with
  | some "!" => .byText
  | some t => if form = .halved then .halved t else .named t
  | none => if form = .plain then .byText else .text

/-- An empty node. -/
def emptyNode (place : Position) : Node := .scalar "" .byText ⟨place, place⟩

/-- A complete node, named by its anchor. -/
def finish (props : Properties) (c : Composer) (n : Node) : Except Fault (Node × Composer) :=
  .ok (n, c.name props.anchor (.complete n))

/-- A node of which only an anchor or a tag is written. -/
def emptyContent (props : Properties) (c : Composer) : Except Fault (Node × Composer) :=
  match props.span with
  | some span => finish props c (.scalar "" (scalarTag props.tag .plain) span)
  | none => .error .malformed

mutual

/-- The node that starts at the next token. In block context it may be a block collection, and
behind a key also a sequence without indentation. No step goes on beyond `fuel` calls. -/
def node (fuel : Nat) (block indentless : Bool) (c : Composer) :
    Except Fault (Node × Composer) :=
  match fuel with
  | 0 => .error .malformed
  | fuel + 1 => do
    let first ← c.peek
    match first.kind with
    | .alias a =>
      match c.anchors.lookup a with
      | some (.complete n) => return (n, c.next)
      | some (.incomplete start) => return (.cycle start, c.next)
      | none => .error .malformed
    | _ =>
      let (props, c) ← c.properties
      let token ← c.peek
      if props.anchor.any fun a => (c.anchors.lookup a).isSome then .error .malformed
      else
        let start := (props.span.map Range.start).getD token.start
        let opened := c.name props.anchor (.incomplete start)
        match token.kind with
        | .blockEntry =>
          if indentless then
            let (items, stop, c) ← indentlessItems fuel [] opened
            finish props c (.sequence items ⟨start, stop⟩)
          else emptyContent props c
        | .scalar text form =>
          finish props c.next (.scalar text (scalarTag props.tag form) ⟨start, token.stop⟩)
        | .openSequence =>
          let (items, stop, c) ← flowItems fuel true [] opened.next
          finish props c (.sequence items ⟨start, stop⟩)
        | .openMapping =>
          let (entries, stop, c) ← flowEntries fuel true [] opened.next
          finish props c (.mapping entries ⟨start, stop⟩)
        | .blockSequence =>
          if block then
            let (items, stop, c) ← blockItems fuel [] opened.next
            finish props c (.sequence items ⟨start, stop⟩)
          else emptyContent props c
        | .blockMapping =>
          if block then
            let (entries, stop, c) ← blockEntries fuel [] opened.next
            finish props c (.mapping entries ⟨start, stop⟩)
          else emptyContent props c
        | _ => emptyContent props c
termination_by structural fuel

/-- The items of a block sequence from the next token on, up to the end of the block. -/
def blockItems (fuel : Nat) (done : List Node) (c : Composer) :
    Except Fault (List Node × Position × Composer) :=
  match fuel with
  | 0 => .error .malformed
  | fuel + 1 => do
    let token ← c.peek
    match token.kind with
    | .blockEntry =>
      if ← c.next.isAt [.blockEntry, .blockEnd] then
        blockItems fuel (emptyNode token.stop :: done) c.next
      else
        let (item, c) ← node fuel true false c.next
        blockItems fuel (item :: done) c
    | .blockEnd => return (done.reverse, token.stop, c.next)
    | _ => .error .malformed
termination_by structural fuel

/-- The items of a sequence without indentation, which ends at the first other token. -/
def indentlessItems (fuel : Nat) (done : List Node) (c : Composer) :
    Except Fault (List Node × Position × Composer) :=
  match fuel with
  | 0 => .error .malformed
  | fuel + 1 => do
    let token ← c.peek
    match token.kind with
    | .blockEntry =>
      if ← c.next.isAt [.blockEntry, .key, .value, .blockEnd] then
        indentlessItems fuel (emptyNode token.stop :: done) c.next
      else
        let (item, c) ← node fuel true false c.next
        indentlessItems fuel (item :: done) c
    | _ => return (done.reverse, token.start, c)
termination_by structural fuel

/-- The entries of a block mapping from the next token on, up to the end of the block. -/
def blockEntries (fuel : Nat) (done : List (Node × Node)) (c : Composer) :
    Except Fault (List (Node × Node) × Position × Composer) :=
  match fuel with
  | 0 => .error .malformed
  | fuel + 1 => do
    let token ← c.peek
    match token.kind with
    | .key =>
      let (key, c) ←
        if ← c.next.isAt [.key, .value, .blockEnd] then pure (emptyNode token.stop, c.next)
        else node fuel true true c.next
      let second ← c.peek
      let (value, c) ←
        if second.kind = .value then
          if ← c.next.isAt [.key, .value, .blockEnd] then pure (emptyNode second.stop, c.next)
          else node fuel true true c.next
        else pure (emptyNode second.start, c)
      blockEntries fuel ((key, value) :: done) c
    | .blockEnd => return (done.reverse, token.stop, c.next)
    | _ => .error .malformed
termination_by structural fuel

/-- The value behind a key of a flow collection that the token `closing` ends. -/
def flowValue (fuel : Nat) (closing : TokenKind) (c : Composer) :
    Except Fault (Node × Composer) :=
  match fuel with
  | 0 => .error .malformed
  | fuel + 1 => do
    let token ← c.peek
    if token.kind = .value then
      if ← c.next.isAt [.flowEntry, closing] then return (emptyNode token.stop, c.next)
      else node fuel false false c.next
    else return (emptyNode token.start, c)
termination_by structural fuel

/-- The key and the value after a key token in a flow collection that `closing` ends. -/
def flowPair (fuel : Nat) (closing : TokenKind) (c : Composer) :
    Except Fault (Node × Node × Composer) :=
  match fuel with
  | 0 => .error .malformed
  | fuel + 1 => do
    let token ← c.peek
    let (key, c) ←
      if ← c.next.isAt [.value, .flowEntry, closing] then pure (emptyNode token.stop, c.next)
      else node fuel false false c.next
    let (value, c) ← flowValue fuel closing c
    return (key, value, c)
termination_by structural fuel

/-- The items of a flow sequence from the next token on, up to its closing bracket. An item with
a key is a mapping of one entry. -/
def flowItems (fuel : Nat) (first : Bool) (done : List Node) (c : Composer) :
    Except Fault (List Node × Position × Composer) :=
  match fuel with
  | 0 => .error .malformed
  | fuel + 1 => do
    let token ← c.peek
    if token.kind = .closeSequence then return (done.reverse, token.stop, c.next)
    else if !first && token.kind ≠ .flowEntry then .error .malformed
    else
      let c := if first then c else c.next
      let token ← c.peek
      if token.kind = .key then
        let (key, value, c) ← flowPair fuel .closeSequence c
        let stop ← c.peek
        flowItems fuel false (.mapping [(key, value)] ⟨token.start, stop.start⟩ :: done) c
      else if token.kind = .closeSequence then return (done.reverse, token.stop, c.next)
      else
        let (item, c) ← node fuel false false c
        flowItems fuel false (item :: done) c
termination_by structural fuel

/-- The entries of a flow mapping from the next token on, up to its closing brace. A node without
a key token is a key without value. -/
def flowEntries (fuel : Nat) (first : Bool) (done : List (Node × Node)) (c : Composer) :
    Except Fault (List (Node × Node) × Position × Composer) :=
  match fuel with
  | 0 => .error .malformed
  | fuel + 1 => do
    let token ← c.peek
    if token.kind = .closeMapping then return (done.reverse, token.stop, c.next)
    else if !first && token.kind ≠ .flowEntry then .error .malformed
    else
      let c := if first then c else c.next
      let token ← c.peek
      if token.kind = .key then
        let (key, value, c) ← flowPair fuel .closeMapping c
        flowEntries fuel false ((key, value) :: done) c
      else if token.kind = .closeMapping then return (done.reverse, token.stop, c.next)
      else
        let (key, c) ← node fuel false false c
        let after ← c.peek
        flowEntries fuel false ((key, emptyNode after.start) :: done) c
termination_by structural fuel

end

/-! ## Documents -/

/-- The shorthands and the place after the directives in front of a document. -/
def directives (c : Composer) (versioned : Bool) (shorthands : List (String × String)) :
    List Token → Except Fault Composer
  | ⟨.version major, _, _⟩ :: rest =>
    if versioned || major ≠ 1 then .error .malformed else directives c true shorthands rest
  | ⟨.shorthand handle lead, _, _⟩ :: rest =>
    if (shorthands.lookup handle).isSome then .error .malformed
    else directives c versioned ((handle, lead) :: shorthands) rest
  | ⟨.otherDirective, _, _⟩ :: rest => directives c versioned shorthands rest
  | tokens => .ok { c with tokens := tokens, shorthands := shorthands ++ standardShorthands }

/-- Tokens that end a document or come between two. -/
def endsDocument : TokenKind → Bool
  | .version _ | .shorthand _ _ | .otherDirective | .documentStart | .documentEnd | .textEnd => true
  | _ => false

/-- The node of a document that may be introduced by directives and a mark. -/
def document (c : Composer) : Except Fault (Node × Composer) := do
  let fuel := 2 * c.tokens.length + 4
  let first ← c.peek
  if endsDocument first.kind then
    let c ← directives c false [] c.tokens
    let mark ← c.peek
    if mark.kind ≠ .documentStart then .error .malformed
    else
      let content ← c.next.peek
      if endsDocument content.kind then return (emptyNode content.start, c.next)
      else node fuel true false c.next
  else node fuel true false c

/-- Nothing but marks of the end may follow a document. Directives are read before it is found
that they introduce another one. -/
def atEnd (c : Composer) : Except Fault Unit := do
  let c := { c with tokens := c.tokens.dropWhile (·.kind == .documentEnd) }
  let first ← c.peek
  if first.kind = .textEnd then return ()
  else
    let c ← directives c false [] c.tokens
    let _ ← c.peek
    .error .malformed

end Composer

/-- The node of a text, if it has one document; a text without any has none. -/
def Node.ofTokens (tokens : List Token) : Except Fault (Option Node) := do
  let c : Composer := ⟨tokens, [], Composer.standardShorthands⟩
  let first ← c.peek
  if first.kind = .textEnd then return none
  else
    let (n, c) ← c.document
    c.atEnd
    return some n

end ServiceModel.Yaml
