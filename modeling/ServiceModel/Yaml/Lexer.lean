/-
From a text to its tokens. Indentation opens and closes block collections; what turns out to be a
mapping key when its colon is found gets its key token, and if need be the start of its mapping,
put in front of it afterwards. Where the text has no next token the list ends in a fault, which
also hides the tokens that might still have turned out to be a key.
-/
import ServiceModel.Yaml.Token
import ServiceModel.Yaml.Quoted
import ServiceModel.Yaml.Plain
import ServiceModel.Yaml.Block

namespace ServiceModel.Yaml

open ServiceModel.Text

/-! ## State -/

/-- A place where a mapping key may have started: the count of tokens before it, whether only a
key can stand there, and where that is. -/
structure KeyMark where
  index : Nat
  required : Bool
  line : Nat
  column : Nat
  offset : Nat
  position : Position
  deriving Repr

/-- The lexer between two tokens. `indent` is the column of the innermost block collection, zero
outside of all; `keys` has an entry for the block context and one for each open flow collection,
the innermost first. -/
structure Lexer where
  cursor : Cursor
  reversed : List Token
  count : Nat
  indent : Nat
  outer : List Nat
  keyAllowed : Bool
  key : Option KeyMark
  outerKeys : List (Option KeyMark)
  deriving Repr

namespace Lexer

/-- The lexer at the head of a text. -/
def start (text : List Char) : Lexer :=
  ⟨Cursor.ofText text, [], 0, 0, [], true, none, []⟩

/-- Is a flow collection open? -/
def inFlow (l : Lexer) : Bool := !l.outerKeys.isEmpty

/-- Adds a token. -/
def push (l : Lexer) (kind : TokenKind) (start stop : Position) : Lexer :=
  { l with reversed := ⟨kind, start, stop⟩ :: l.reversed, count := l.count + 1 }

/-- Adds a token that takes no characters. -/
def pushHere (l : Lexer) (kind : TokenKind) : Lexer :=
  l.push kind l.cursor.position l.cursor.position

/-- Adds a token that takes the given count of characters. -/
def take (l : Lexer) (kind : TokenKind) (width : Nat) : Lexer :=
  let cursor := l.cursor.forward width
  { l.push kind l.cursor.position cursor.position with cursor := cursor }

/-- Puts tokens in front of the token with the given index; `added` has the last one first. -/
def insertAt (l : Lexer) (index : Nat) (added : List Token) : Lexer :=
  let behind := l.count - index
  { l with
    reversed := l.reversed.take behind ++ (added ++ l.reversed.drop behind),
    count := l.count + added.length }

/-! ## Keys and indentation -/

/-- Forgets where a key may have started; fails if only a key could stand there. -/
def dropKey (l : Lexer) : Except Fault Lexer :=
  match l.key with
  | some mark => if mark.required then .error .malformed else .ok { l with key := none }
  | none => .ok l

/-- Remembers that a key may start here. -/
def markKey (l : Lexer) : Except Fault Lexer :=
  if l.keyAllowed then do
    let l ← l.dropKey
    let c := l.cursor
    return { l with
      key := some ⟨l.count, !l.inFlow && l.indent == c.column, c.line, c.column, c.offset,
        c.position⟩ }
  else .ok l

/-- A key stands on one line and has at most 1024 characters. -/
def isStale (c : Cursor) (mark : KeyMark) : Bool :=
  mark.line != c.line || mark.offset + 1024 < c.offset

/-- Forgets the places from where the cursor is too far; fails if only a key could stand there. -/
def dropStale (l : Lexer) : Except Fault Lexer :=
  let stale (mark? : Option KeyMark) : Bool := mark?.any (isStale l.cursor)
  let fresh (mark? : Option KeyMark) : Option KeyMark := mark?.filter (!isStale l.cursor ·)
  if (l.key :: l.outerKeys).any fun mark? => stale mark? && mark?.any KeyMark.required then
    .error .malformed
  else .ok { l with key := fresh l.key, outerKeys := l.outerKeys.map fresh }

/-- Closes the block collections that are indented beyond a column, given the enclosing ones. -/
def closeBlocks (column : Nat) (l : Lexer) : List Nat → Lexer
  | [] => l
  | next :: outer =>
    if column < l.indent then
      closeBlocks column { l.pushHere .blockEnd with indent := next, outer := outer } outer
    else l

/-- Closes the block collections that are indented beyond a column; inside a flow collection
indentation does not count. -/
def unwind (l : Lexer) (column : Nat) : Lexer :=
  if l.inFlow then l else closeBlocks column l l.outer

/-- Is a column beyond the innermost block collection? -/
def opensBlock (l : Lexer) (column : Nat) : Bool := l.indent < column

/-- Opens a block collection at a column. -/
def openBlock (l : Lexer) (column : Nat) : Lexer :=
  { l with indent := column, outer := l.indent :: l.outer }

/-! ## Tokens -/

/-- White space, comments and line ends at the head of a text: their count of characters and
whether a line ended. -/
def gapFrom (inComment broke : Bool) (count : Nat) : List Char → Nat × Bool
  | [] => (count, broke)
  | c :: rest =>
    if isBreak c then gapFrom false true (count + 1) rest
    else if inComment || c == ' ' then gapFrom inComment broke (count + 1) rest
    else if c = '#' then gapFrom true broke (count + 1) rest
    else (count, broke)

/-- Moves to the next token; after a line end a key may start in block context. -/
def skipGap (l : Lexer) : Lexer :=
  let cursor :=
    if l.cursor.offset = 0 && l.cursor.rest.head? == some byteOrderMark then l.cursor.next
    else l.cursor
  let (count, broke) := gapFrom false false 0 cursor.rest
  { l with
    cursor := cursor.forward count,
    keyAllowed := l.keyAllowed || (broke && !l.inFlow) }

/-- The end of the text. -/
def textEnd (l : Lexer) : Except Fault Lexer := do
  let l ← (l.unwind 0).dropKey
  return { l with keyAllowed := false }.pushHere .textEnd

/-- A mark between documents. -/
def documentMark (l : Lexer) (kind : TokenKind) : Except Fault Lexer := do
  let l ← (l.unwind 0).dropKey
  return { l with keyAllowed := false }.take kind 3

/-- The start of a flow collection, which may be a key. -/
def openFlow (l : Lexer) (kind : TokenKind) : Except Fault Lexer := do
  let l ← l.markKey
  return { l with keyAllowed := true, key := none, outerKeys := l.key :: l.outerKeys }.take kind 1

/-- The end of a flow collection. -/
def closeFlow (l : Lexer) (kind : TokenKind) : Except Fault Lexer := do
  let l ← l.dropKey
  match l.outerKeys with
  | [] => .error .malformed
  | key :: outerKeys =>
    return { l with keyAllowed := false, key := key, outerKeys := outerKeys }.take kind 1

/-- A comma inside a flow collection. -/
def flowEntry (l : Lexer) : Except Fault Lexer := do
  let l ← { l with keyAllowed := true }.dropKey
  return l.take .flowEntry 1

/-- The token that starts an entry of a block collection or asks for a key, after the start of
the collection when it is the first one. -/
def blockItem (l : Lexer) (collection : TokenKind) : Except Fault Lexer :=
  if l.inFlow then .ok l
  else if !l.keyAllowed then .error .malformed
  else if l.opensBlock l.cursor.column then
    .ok ((l.openBlock l.cursor.column).pushHere collection)
  else .ok l

/-- A hyphen in front of an entry. -/
def blockEntry (l : Lexer) : Except Fault Lexer := do
  let l ← l.blockItem .blockSequence
  let l ← { l with keyAllowed := true }.dropKey
  return l.take .blockEntry 1

/-- A question mark in front of a key. -/
def explicitKey (l : Lexer) : Except Fault Lexer := do
  let l ← l.blockItem .blockMapping
  let l ← { l with keyAllowed := !l.inFlow }.dropKey
  return l.take .key 1

/-- A colon in front of a value. -/
def value (l : Lexer) : Except Fault Lexer := do
  match l.key with
  | some mark =>
    let key : Token := ⟨.key, mark.position, mark.position⟩
    let l := { l with key := none, keyAllowed := false }
    let l :=
      if !l.inFlow && l.opensBlock mark.column then
        (l.openBlock mark.column).insertAt mark.index
          [key, ⟨.blockMapping, mark.position, mark.position⟩]
      else l.insertAt mark.index [key]
    return l.take .value 1
  | none =>
    let l ← l.blockItem .blockMapping
    let l ← { l with keyAllowed := !l.inFlow }.dropKey
    return l.take .value 1

/-- The name after the indicator of an anchor or an alias. -/
def name? (rest : List Char) : Option (List Char) :=
  let name := rest.takeWhile isNameChar
  let after := rest.drop name.length
  let ends := endsOr (fun c => isBlank c || isBreak c || "?:,]\x7d%@`".contains c) after
  if name.isEmpty || !ends then none else some name

/-- An anchor or an alias. -/
def named (l : Lexer) (kind : String → TokenKind) : Except Fault Lexer := do
  let l ← l.markKey
  match name? (l.cursor.rest.drop 1) with
  | none => .error .malformed
  | some name =>
    return { l with keyAllowed := false }.take (kind (String.ofList name)) (name.length + 1)

/-! ## Tags and directives -/

/-- Characters of a tag beyond letters and digits. -/
def isTagChar (c : Char) : Bool := c.isAlphanum || "-;/?:@&=+$,_.!~*'()[]%".contains c

/-- The bytes that percent signs with two digits each spell, and the text after them. -/
def escapedBytes (done : List UInt8) : List Char → Option (List UInt8 × List Char)
  | '%' :: a :: b :: rest =>
    match Numeral.digitIn? 16 a, Numeral.digitIn? 16 b with
    | some x, some y => escapedBytes (UInt8.ofNat (x * 16 + y) :: done) rest
    | _, _ => none
  | '%' :: _ => none
  | rest => some (done.reverse, rest)

/-- The text of a tag at the head of `text`, with escaped characters resolved, and the text after
it; each step takes at least one character. -/
def tagText? (done : List Char) : Nat → List Char → Option (List Char × List Char)
  | 0, _ => none
  | fuel + 1, text =>
    match text with
    | '%' :: _ =>
      match escapedBytes [] text with
      | none => none
      | some (bytes, rest) =>
        match String.fromUTF8? ⟨bytes.toArray⟩ with
        | none => none
        | some s => tagText? (s.toList.reverse ++ done) fuel rest
    | c :: rest => if isTagChar c then tagText? (c :: done) fuel rest else some (done.reverse, text)
    | [] => some (done.reverse, [])

/-- The text of a tag, which has at least one character, and the text after it. -/
def someTagText? (text : List Char) : Option (List Char × List Char) :=
  if (text.head?.any isTagChar) then tagText? [] (text.length + 1) text else none

/-- The shorthand at the head of a tag: an exclamation mark alone or two of them around a name. -/
def handle? (text : List Char) : Option (List Char × List Char) :=
  match text with
  | '!' :: ' ' :: rest => some (['!'], ' ' :: rest)
  | '!' :: rest =>
    let name := rest.takeWhile isNameChar
    match rest.drop name.length with
    | '!' :: after => some ('!' :: name ++ ['!'], after)
    | _ => none
  | _ => none

/-- Does an exclamation mark follow before the next space or line end? -/
def usesHandle (text : List Char) : Bool :=
  (text.takeWhile fun c => !(c == ' ' || isBreak c)).contains '!'

/-- The tag after its exclamation mark: shorthand, rest, and the text after the tag. -/
def tag? (rest : List Char) : Option (Option String × String × List Char) :=
  match rest with
  | '<' :: more =>
    match someTagText? more with
    | some (suffix, '>' :: after) => some (none, String.ofList suffix, after)
    | _ => none
  | _ =>
    if atBlank rest then some (none, "!", rest)
    else if usesHandle rest then do
      let (handle, more) ← handle? ('!' :: rest)
      let (suffix, after) ← someTagText? more
      return (some (String.ofList handle), String.ofList suffix, after)
    else do
      let (suffix, after) ← someTagText? rest
      return (some "!", String.ofList suffix, after)

/-- A tag. -/
def tag (l : Lexer) : Except Fault Lexer := do
  let l ← l.markKey
  let rest := l.cursor.rest.drop 1
  match tag? rest with
  | none => .error .malformed
  | some (handle, suffix, after) =>
    if atSpace after then
      return { l with keyAllowed := false }.take (.tag handle suffix)
        (1 + (rest.length - after.length))
    else .error .malformed

/-- A number of a version at the head of a text, and the text after it. -/
def versionNumber (text : List Char) : Except Fault (Nat × List Char) :=
  let digits := text.takeWhile Char.isDigit
  match Numeral.digits 10 digits with
  | none => .error .malformed
  | some n =>
    if Numeral.isOverlong digits then .error .number else .ok (n, text.drop digits.length)

/-- The version that a text declares, and the text after it. -/
def version (text : List Char) : Except Fault (TokenKind × List Char) := do
  let (major, rest) ← versionNumber text
  match rest with
  | '.' :: rest =>
    let (_, after) ← versionNumber rest
    if atSpace after then return (.version major, after) else .error .malformed
  | _ => .error .malformed

/-- A shorthand for tags and what it stands for, and the text after them. -/
def shorthand? (text : List Char) : Option (TokenKind × List Char) := do
  let (handle, more) ← handle? text
  if more.head? ≠ some ' ' then none
  else
    let (lead, after) ← someTagText? (more.dropWhile (· == ' '))
    if atSpace after then
      return (.shorthand (String.ofList handle) (String.ofList lead), after)
    else none

/-- What a directive says after its percent sign, and the text after it. -/
def directiveText (rest : List Char) : Except Fault (TokenKind × List Char) :=
  let name := rest.takeWhile isNameChar
  let after := rest.drop name.length
  let body := after.dropWhile (· == ' ')
  if name.isEmpty || !atSpace after then .error .malformed
  else if name = "YAML".toList then version body
  else if name = "TAG".toList then
    match shorthand? body with
    | none => .error .malformed
    | some (kind, after) => .ok (kind, after)
  else .ok (.otherDirective, after.dropWhile (!isBreak ·))

/-- A directive, which takes its whole line. -/
def directive (l : Lexer) : Except Fault Lexer := do
  let l ← (l.unwind 0).dropKey
  let rest := l.cursor.rest.drop 1
  let (kind, after) ← directiveText rest
  match ignoredLine? after with
  | none => .error .malformed
  | some width =>
    let l := { l with keyAllowed := false }.take kind (1 + (rest.length - after.length))
    return { l with cursor := l.cursor.forward width }

/-! ## Scalars -/

/-- A block scalar, which is no key. -/
def blockScalar (l : Lexer) (folding : Bool) : Except Fault Lexer := do
  let l ← { l with keyAllowed := true }.dropKey
  match block? folding l.indent (l.cursor.rest.drop 1) with
  | none => .error .malformed
  | some (text, width) => return l.take (.scalar (String.ofList text) .marked) (width + 1)

/-- The text up to a closing quote with its form, and the count of characters it takes. -/
def betweenQuotes (double : Bool) (rest : List Char) :
    Except Fault ((List Char × ScalarForm) × Nat) := do
  if double then
    let (codes, width) ← doubleQuoted [] .none 0 rest
    return ((charsOfCodes codes, if codes.any isHalf then .halved else .marked), width)
  else
    let (text, width) ← singleQuoted [] .none 0 rest
    return ((text, .marked), width)

/-- A scalar between quotes. -/
def quotedScalar (l : Lexer) (double : Bool) : Except Fault Lexer := do
  let l ← l.markKey
  let ((text, form), width) ← betweenQuotes double (l.cursor.rest.drop 1)
  return { l with keyAllowed := false }.take (.scalar (String.ofList text) form) (width + 1)

/-- A plain scalar. The spaces and line ends behind it, where it could have gone on, are passed
over with it; after a line end a key may start, also inside a flow collection. -/
def plainScalar (l : Lexer) : Except Fault Lexer := do
  let l ← l.markKey
  let (text, width) := plain l.inFlow l.indent l.cursor.rest
  let l := l.take (.scalar (String.ofList text) .plain) width
  let gap := l.cursor.rest.takeWhile fun c => c == ' ' || isBreak c
  return { l with cursor := l.cursor.forward gap.length, keyAllowed := gap.any isBreak }

/-! ## The text -/

/-- The token at a character, which `rest` follows. -/
def tokenAt (l : Lexer) (c : Char) (rest : List Char) : Except Fault Lexer :=
  let lineHead := l.cursor.column == 1
  if c = '%' && lineHead then l.directive
  else if lineHead && atDocumentMark (c :: rest) then
    l.documentMark (if c = '-' then .documentStart else .documentEnd)
  else if c = '[' then l.openFlow .openSequence
  else if c = '{' then l.openFlow .openMapping
  else if c = ']' then l.closeFlow .closeSequence
  else if c = '}' then l.closeFlow .closeMapping
  else if c = ',' then l.flowEntry
  else if c = '-' && atBlank rest then l.blockEntry
  else if c = '?' && (l.inFlow || atBlank rest) then l.explicitKey
  else if c = ':' && (l.inFlow || atBlank rest) then l.value
  else if c = '*' then l.named .alias
  else if c = '&' then l.named .anchor
  else if c = '!' then l.tag
  else if c = '|' && !l.inFlow then l.blockScalar false
  else if c = '>' && !l.inFlow then l.blockScalar true
  else if c = '\'' then l.quotedScalar false
  else if c = '"' then l.quotedScalar true
  else if startsPlain l.inFlow c rest then l.plainScalar
  else .error .malformed

/-- The count of tokens in front of which nothing will be put any more: those before the first
place where a key may have started and from where the cursor is not too far. -/
def settled (l : Lexer) : Nat :=
  (l.key :: l.outerKeys).foldl (fun count mark? =>
    match mark? with
    | some mark => if isStale l.cursor mark then count else min count mark.index
    | none => count) l.count

/-- The tokens of a text that has no next one. Those that are not settled are not known either:
whoever asks for one of them learns of the fault first. -/
def broken (l : Lexer) (fault : Fault) : List Token :=
  let known := l.reversed.drop (l.count - l.settled)
  (⟨.fault fault, l.cursor.position, l.cursor.position⟩ :: known).reverse

/-- The lexer after the next token; a text that has ended gives its end. -/
def step (l : Lexer) : Except Fault Lexer := do
  let l ← l.skipGap.dropStale
  let l := l.unwind l.cursor.column
  match l.cursor.rest with
  | [] => l.textEnd
  | c :: rest => l.tokenAt c rest

/-- The tokens from here to the end of the text, which `fuel` characters cannot outlast. -/
def run : Nat → Lexer → List Token
  | 0, l => l.broken .malformed
  | fuel + 1, l =>
    match l.step with
    | .error fault => l.broken fault
    | .ok next =>
      if next.reversed.head?.any (·.kind == .textEnd) then next.reversed.reverse
      else run fuel next

end Lexer

/-- The tokens of a text. -/
def Token.ofText (text : List Char) : List Token :=
  (Lexer.start text).run (text.length + 2)

end ServiceModel.Yaml
