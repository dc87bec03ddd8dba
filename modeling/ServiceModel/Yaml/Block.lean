/-
Block scalars: an indicator with an optional indentation and an optional rule for the line ends at
the end, then the lines that are indented enough. A folded block joins neighbouring lines that
start with no blank by a space.
-/
import ServiceModel.Yaml.Cursor

namespace ServiceModel.Yaml

/-- What becomes of the line ends at the end of a block: all dropped, one kept, or all kept. -/
inductive Chomping where
  | strip
  | clip
  | keep
  deriving DecidableEq, Repr

/-- The chomping that a sign stands for. -/
def chomping? (c : Char) : Option Chomping :=
  match c with
  | '+' => some .keep
  | '-' => some .strip
  | _ => none

/-- The indentation that a digit stands for. -/
def increment? (c : Char) : Option Nat :=
  if c.isDigit then some (c.toNat - '0'.toNat) else none

/-- The signs after a block's indicator: chomping, indentation, and how many signs there are. -/
def blockSigns (text : List Char) : Chomping × Option Nat × Nat :=
  match text with
  | [] => (.clip, none, 0)
  | a :: rest =>
    match chomping? a, increment? a with
    | some chomping, _ =>
      match rest.head?.bind increment? with
      | some n => (chomping, some n, 2)
      | none => (chomping, none, 1)
    | none, some n =>
      match rest.head?.bind chomping? with
      | some chomping => (chomping, some n, 2)
      | none => (.clip, some n, 1)
    | none, none => (.clip, none, 0)

/-- The count of characters up to and with the line end, when only spaces and a comment are left
on the line. -/
def ignoredLine? (text : List Char) : Option Nat :=
  let spaces := text.takeWhile (· == ' ')
  let rest := text.drop spaces.length
  let comment := if rest.head? = some '#' then rest.takeWhile (!isBreak ·) else []
  match rest.drop comment.length with
  | [] => some (spaces.length + comment.length)
  | c :: more =>
    if isBreak c then some (spaces.length + comment.length + breakWidth c more) else none

/-- Empty lines in front of a line of a block: their line ends with the last first, the count of
characters up to the last of them, the column and count reached, the farthest column, the rest. -/
structure EmptyLines where
  breaks : List Char
  stop : Nat
  column : Nat
  count : Nat
  farthest : Nat
  rest : List Char
  deriving Repr

/-- Passes empty lines and the spaces of the next line, not beyond column `indent` where one is
given. -/
def emptyLines (indent : Option Nat) (sofar : EmptyLines) : List Char → EmptyLines
  | '\r' :: '\n' :: rest =>
    emptyLines indent
      { sofar with
        breaks := '\n' :: sofar.breaks, stop := sofar.count + 2, column := 1,
        count := sofar.count + 2 } rest
  | c :: rest =>
    if isBreak c then
      emptyLines indent
        { sofar with
          breaks := breakText c :: sofar.breaks, stop := sofar.count + 1, column := 1,
          count := sofar.count + 1 } rest
    else if c = ' ' && indent.all (sofar.column < ·) then
      emptyLines indent
        { sofar with
          column := sofar.column + 1, count := sofar.count + 1,
          farthest := max sofar.farthest (sofar.column + 1) } rest
    else { sofar with rest := c :: rest }
  | [] => { sofar with rest := [] }

/-- The empty lines at the head of a text that starts at a line's head. -/
def emptyLinesAt (indent : Option Nat) (count : Nat) (text : List Char) : EmptyLines :=
  emptyLines indent ⟨[], count, 1, count, 1, text⟩ text

/-- The lines of a block: the text so far with the last character first, the line end after its
last line, and the empty lines after that. -/
structure BlockLines where
  done : List Char
  ending : List Char
  tail : EmptyLines
  deriving Repr

/-- Adds lines while they are indented to `indent`; each step takes at least one character. -/
def blockLines (folding : Bool) (indent : Nat) : Nat → BlockLines → BlockLines
  | 0, lines => lines
  | fuel + 1, lines =>
    let ahead := lines.tail
    match ahead.rest with
    | [] => lines
    | c :: _ =>
      if ahead.column ≠ indent then lines
      else
        let content := ahead.rest.takeWhile (!isBreak ·)
        let done := content.reverse ++ (ahead.breaks ++ lines.done)
        let after := ahead.rest.drop content.length
        let (ending, width, rest) := match after with
          | [] => ([], 0, [])
          | b :: more => ([breakText b], breakWidth b more, afterBreak b more)
        let count := ahead.count + content.length + width
        let column := if after.isEmpty then ahead.column + content.length else 1
        let tail := emptyLines (some indent) ⟨[], count, column, count, 1, rest⟩ rest
        let goesOn := tail.column = indent && !tail.rest.isEmpty
        if goesOn then
          let folds := folding && ending == ['\n'] && !isBlank c && !endsOr isBlank tail.rest
          let joint := if folds then (if tail.breaks.isEmpty then [' '] else []) else ending
          blockLines folding indent fuel ⟨joint ++ done, ending, tail⟩
        else ⟨done, ending, tail⟩

/-- The text of a block scalar after its indicator and the count of characters it takes, inside a
block that is indented to `outer`. -/
def block? (folding : Bool) (outer : Nat) (text : List Char) : Option (List Char × Nat) := do
  let (chomping, increment, signs) := blockSigns text
  if increment = some 0 || !atSpace (text.drop signs) then none
  else
    let header := signs + (← ignoredLine? (text.drop signs))
    let least := max outer 1
    let body := text.drop header
    let (indent, first) := match increment with
      | some n =>
        let indent := least + n
        (indent, emptyLinesAt (some indent) header body)
      | none =>
        let first := emptyLinesAt none header body
        (max (least + 1) first.farthest, first)
    let lines := blockLines folding indent (body.length + 1) ⟨[], [], first⟩
    let ending := if chomping = .strip then [] else lines.ending
    let breaks := if chomping = .keep then lines.tail.breaks else []
    return ((breaks ++ (ending ++ lines.done)).reverse, lines.tail.stop)

end ServiceModel.Yaml
