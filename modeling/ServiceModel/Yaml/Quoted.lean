/-
Scalars between quotes. Between single quotes only a doubled quote is special; between double
quotes a backslash starts an escape. Line ends with the blanks around them fold: a single one
becomes a space, and of several the first is dropped.
-/
import ServiceModel.Yaml.Cursor
import ServiceModel.Yaml.Fault
import ServiceModel.Text.Numeral

namespace ServiceModel.Yaml

open ServiceModel.Text

/-- What has been passed between two characters of a scalar and is not yet part of its text. -/
inductive Gap where
  | none
  /-- Blanks inside a line, the last one first. -/
  | blanks (reversed : List Char)
  /-- Line ends with the blanks around them: the first one, and the others with the last first. -/
  | breaks (first : Char) (reversed : List Char)
  /-- Line ends after a backslash: those after the first one, the last first. -/
  | escaped (reversed : List Char)
  deriving Repr

namespace Gap

/-- The gap with one more blank; blanks beside line ends do not count. -/
def blank (c : Char) : Gap → Gap
  | .none => .blanks [c]
  | .blanks reversed => .blanks (c :: reversed)
  | gap => gap

/-- The gap with one more line end, which drops the blanks before it. -/
def lineEnd (c : Char) : Gap → Gap
  | .none | .blanks _ => .breaks (breakText c) []
  | .breaks first reversed => .breaks first (breakText c :: reversed)
  | .escaped reversed => .escaped (breakText c :: reversed)

/-- What a gap amounts to, the last character first. -/
def folded : Gap → List Char
  | .none => []
  | .blanks reversed => reversed
  | .breaks first reversed =>
    if first ≠ '\n' then reversed ++ [first]
    else if reversed.isEmpty then [' '] else reversed
  | .escaped reversed => reversed

end Gap

/-- The code points of a text so far, the last first, with a gap after them. -/
def close (gap : Gap) (done : List Nat) : List Nat := gap.folded.map Char.toNat ++ done

/-- Is a code point a half of a character? -/
def isHalf (code : Nat) : Bool := 0xd800 ≤ code && code < 0xe000

/-- The characters of a list of code points, of which some may be halves of characters. A text has
no halves: two of them are shown as the character that they make, and a half without the other as
the replacement character. -/
def charsOfCodes : List Nat → List Char
  | high :: low :: rest =>
    if 0xd800 ≤ high && high < 0xdc00 && 0xdc00 ≤ low && low < 0xe000 then
      Char.ofNat (0x10000 + (high - 0xd800) * 0x400 + (low - 0xdc00)) :: charsOfCodes rest
    else charOfCode high :: charsOfCodes (low :: rest)
  | [code] => [charOfCode code]
  | [] => []
where
  charOfCode (n : Nat) : Char :=
    if isHalf n then Char.ofNat 0xfffd else Char.ofNat n

/-- The rest of a scalar after an opening single quote, as its text and the count of characters it
takes. -/
def singleQuoted (done : List Char) (gap : Gap) (count : Nat) :
    List Char → Except Fault (List Char × Nat)
  | [] => .error .malformed
  | '\'' :: '\'' :: rest => singleQuoted ('\'' :: (gap.folded ++ done)) .none (count + 2) rest
  | '\r' :: '\n' :: rest =>
    if atDocumentMark rest then .error .malformed
    else singleQuoted done (gap.lineEnd '\n') (count + 2) rest
  | c :: rest =>
    if c = '\'' then .ok ((gap.folded ++ done).reverse, count + 1)
    else if isBlank c then singleQuoted done (gap.blank c) (count + 1) rest
    else if isBreak c then
      if atDocumentMark rest then .error .malformed
      else singleQuoted done (gap.lineEnd c) (count + 1) rest
    else singleQuoted (c :: (gap.folded ++ done)) .none (count + 1) rest

/-- The code point that a letter after a backslash stands for. -/
def escape? (c : Char) : Option Nat :=
  match c with
  | '0' => some 0
  | 'a' => some 7
  | 'b' => some 8
  | 't' => some 9
  | '\t' => some 9
  | 'n' => some 10
  | 'v' => some 11
  | 'f' => some 12
  | 'r' => some 13
  | 'e' => some 27
  | ' ' => some 32
  | '"' => some 34
  | '\\' => some 92
  | '/' => some 47
  | 'N' => some 0x85
  | '_' => some 0xa0
  | 'L' => some 0x2028
  | 'P' => some 0x2029
  | _ => none

/-- The code point that digits in base sixteen spell. -/
def codeOf (digits : List Char) : Except Fault Nat :=
  match digits.mapM (Numeral.digitIn? 16) with
  | none => .error .malformed
  | some values =>
    let code := values.foldl (fun n d => n * 16 + d) 0
    if code < 0x110000 then .ok code
    else if code < 0x80000000 then .error .codePoint
    else .error .wideCodePoint

/-- The rest of a scalar after an opening double quote, as its code points and the count of
characters it takes. -/
def doubleQuoted (done : List Nat) (gap : Gap) (count : Nat) :
    List Char → Except Fault (List Nat × Nat)
  | [] => .error .malformed
  | '\\' :: 'x' :: a :: b :: rest =>
    match codeOf [a, b] with
    | .ok code => doubleQuoted (code :: close gap done) .none (count + 4) rest
    | .error fault => .error fault
  | '\\' :: 'u' :: a :: b :: c :: d :: rest =>
    match codeOf [a, b, c, d] with
    | .ok code => doubleQuoted (code :: close gap done) .none (count + 6) rest
    | .error fault => .error fault
  | '\\' :: 'U' :: a :: b :: c :: d :: e :: f :: g :: h :: rest =>
    match codeOf [a, b, c, d, e, f, g, h] with
    | .ok code => doubleQuoted (code :: close gap done) .none (count + 10) rest
    | .error fault => .error fault
  | '\\' :: '\r' :: '\n' :: rest =>
    if atDocumentMark rest then .error .malformed
    else doubleQuoted (close gap done) (.escaped []) (count + 3) rest
  | '\\' :: e :: rest =>
    match escape? e with
    | some code => doubleQuoted (code :: close gap done) .none (count + 2) rest
    | none =>
      if isBreak e && !atDocumentMark rest then
        doubleQuoted (close gap done) (.escaped []) (count + 2) rest
      else .error .malformed
  | '\r' :: '\n' :: rest =>
    if atDocumentMark rest then .error .malformed
    else doubleQuoted done (gap.lineEnd '\n') (count + 2) rest
  | c :: rest =>
    if c = '"' then .ok ((close gap done).reverse, count + 1)
    else if c = '\\' then .error .malformed
    else if isBlank c then doubleQuoted done (gap.blank c) (count + 1) rest
    else if isBreak c then
      if atDocumentMark rest then .error .malformed
      else doubleQuoted done (gap.lineEnd c) (count + 1) rest
    else doubleQuoted (c.toNat :: close gap done) .none (count + 1) rest

end ServiceModel.Yaml
