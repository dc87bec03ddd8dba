/-
The character classes of the markup language, and a place in a text together with what follows
it. A line feed, a carriage return with or without a line feed after it, a next line, a line
separator and a paragraph separator each end a line. The byte order mark takes no column.
-/
import ServiceModel.Text.Range

namespace ServiceModel.Yaml

open ServiceModel.Text

/-! ## Character classes -/

/-- Characters that a text may hold. -/
def isAllowed (c : Char) : Bool :=
  let n := c.toNat
  n == 9 || n == 10 || n == 13 || (0x20 ≤ n && n ≤ 0x7e) || n == 0x85 ||
    (0xa0 ≤ n && n ≤ 0xd7ff) || (0xe000 ≤ n && n ≤ 0xfffd) || 0x10000 ≤ n

/-- The line separator and the paragraph separator, which are kept when lines are joined. -/
def isKeptBreak (c : Char) : Bool := c.toNat == 0x2028 || c.toNat == 0x2029

/-- Characters that end a line. -/
def isBreak (c : Char) : Bool :=
  c == '\n' || c == '\r' || c.toNat == 0x85 || isKeptBreak c

/-- Blanks inside a line. -/
def isBlank (c : Char) : Bool := c == ' ' || c == '\t'

/-- What a line end counts as in the text of a scalar. -/
def breakText (c : Char) : Char := if isKeptBreak c then c else '\n'

/-- The byte order mark. -/
def byteOrderMark : Char := Char.ofNat 0xfeff

/-- Letters, digits, hyphen and underscore. -/
def isNameChar (c : Char) : Bool := c.isAlphanum || c == '-' || c == '_'

/-- The text ends here or goes on with a character that satisfies `p`. -/
def endsOr (p : Char → Bool) (text : List Char) : Bool :=
  match text with
  | [] => true
  | c :: _ => p c

/-- The text ends here, or a space or a line end follows. -/
def atSpace (text : List Char) : Bool := endsOr (fun c => c == ' ' || isBreak c) text

/-- The text ends here, or a blank or a line end follows. -/
def atBlank (text : List Char) : Bool := endsOr (fun c => isBlank c || isBreak c) text

/-- Three hyphens or three dots that stand alone: the end of a document if at a line's head. -/
def atDocumentMark (text : List Char) : Bool :=
  match text with
  | '-' :: '-' :: '-' :: rest => atBlank rest
  | '.' :: '.' :: '.' :: rest => atBlank rest
  | _ => false

/-- The text after a line end at its head: a line feed belongs to the carriage return before it. -/
def afterBreak (c : Char) (rest : List Char) : List Char :=
  match rest with
  | '\n' :: more => if c = '\r' then more else rest
  | _ => rest

/-- How many characters a line end at the head of a text takes. -/
def breakWidth (c : Char) (rest : List Char) : Nat :=
  match rest with
  | '\n' :: _ => if c = '\r' then 2 else 1
  | _ => 1

/-! ## Cursor -/

/-- A place in a text: lines and columns count from one, the offset from zero. -/
structure Cursor where
  rest : List Char
  line : Nat
  column : Nat
  offset : Nat
  deriving Repr

namespace Cursor

/-- The head of a text. -/
def ofText (text : List Char) : Cursor := ⟨text, 1, 1, 0⟩

/-- The place as a position. -/
def position (c : Cursor) : Position := ⟨c.line, c.column, c.offset⟩

/-- Past one character; a carriage return before a line feed does not end its line. -/
def next (cursor : Cursor) : Cursor :=
  match cursor with
  | ⟨[], line, column, offset⟩ => ⟨[], line, column, offset⟩
  | ⟨c :: rest, line, column, offset⟩ =>
    if isBreak c && !(c == '\r' && rest.head? == some '\n') then ⟨rest, line + 1, 1, offset + 1⟩
    else if c = byteOrderMark then ⟨rest, line, column, offset + 1⟩
    else ⟨rest, line, column + 1, offset + 1⟩

/-- Past the given count of characters. -/
def forward : Nat → Cursor → Cursor
  | 0, cursor => cursor
  | n + 1, cursor => forward n cursor.next

end Cursor

end ServiceModel.Yaml
