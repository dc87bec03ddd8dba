/-
Plain scalars, which end where something else can start: at a colon before a blank, at a comment,
at a tab, in flow context at an indicator, in block context at a line that is not indented enough.
-/
import ServiceModel.Yaml.Cursor

namespace ServiceModel.Yaml

/-- Does a plain scalar end before the character `c`, which `rest` follows? Blanks are treated
elsewhere. -/
def endsPlain (flow : Bool) (c : Char) (rest : List Char) : Bool :=
  c == '\t' ||
    (c == ':' && (atBlank rest || (flow && endsOr (fun d => ",[]\x7b\x7d".contains d) rest))) ||
    (flow && ",?[]\x7b\x7d".contains c)

/-- What has been passed since the last character of a plain scalar: blanks, line ends, the
column reached on the last line, and the count of characters. -/
structure PlainGap where
  blanks : List Char
  breaks : Option (Char × List Char)
  column : Nat
  width : Nat
  deriving Repr

namespace PlainGap

/-- Nothing. -/
def empty : PlainGap := ⟨[], none, 1, 0⟩

/-- The gap with one more space. -/
def space (gap : PlainGap) : PlainGap :=
  { gap with blanks := ' ' :: gap.blanks, column := gap.column + 1, width := gap.width + 1 }

/-- The gap with one more line end of the given width. -/
def lineEnd (gap : PlainGap) (c : Char) (width : Nat) : PlainGap :=
  let breaks := match gap.breaks with
    | none => (breakText c, [])
    | some (first, reversed) => (first, breakText c :: reversed)
  { gap with breaks := some breaks, column := 1, width := gap.width + width }

/-- What a gap amounts to, the last character first: blanks count only inside a line. -/
def folded (gap : PlainGap) : List Char :=
  match gap.breaks with
  | none => gap.blanks
  | some (first, reversed) =>
    if first ≠ '\n' then reversed ++ [first]
    else if reversed.isEmpty then [' '] else reversed

end PlainGap

/-- The text of a plain scalar and the count of characters it takes, in a context whose indented
lines start beyond the column `indent`. -/
def plainFrom (flow : Bool) (indent : Nat) (done : List Char) (gap : PlainGap) (count : Nat) :
    List Char → List Char × Nat
  | [] => (done.reverse, count)
  | '\r' :: '\n' :: rest =>
    if atDocumentMark rest then (done.reverse, count)
    else plainFrom flow indent done (gap.lineEnd '\n' 2) count rest
  | c :: rest =>
    if c = ' ' then plainFrom flow indent done gap.space count rest
    else if isBreak c then
      if atDocumentMark rest then (done.reverse, count)
      else plainFrom flow indent done (gap.lineEnd c 1) count rest
    else if endsPlain flow c rest then (done.reverse, count)
    else if gap.width ≠ 0 && (c == '#' || (!flow && gap.breaks.isSome && gap.column ≤ indent)) then
      (done.reverse, count)
    else
      plainFrom flow indent (c :: (gap.folded ++ done)) .empty (count + gap.width + 1) rest

/-- The plain scalar at the head of a text. -/
def plain (flow : Bool) (indent : Nat) (text : List Char) : List Char × Nat :=
  plainFrom flow indent [] .empty 0 text

/-- May a plain scalar start here? -/
def startsPlain (flow : Bool) (c : Char) (rest : List Char) : Bool :=
  !(isBlank c || isBreak c || "-?:,[]\x7b\x7d#&*!|>'\"%@`".contains c) ||
    (!atBlank rest && (c == '-' || (!flow && (c == '?' || c == ':'))))

end ServiceModel.Yaml
