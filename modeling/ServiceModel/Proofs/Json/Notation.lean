/-
The notation of JSON with all its freedom: white space wherever it may stand, each character of a
string in any of its spellings, numbers with and without fraction and exponent. A text of JSON is a
tree of these, which `write` spells out; `value` is what it denotes.
-/
import ServiceModel.Primitive
import ServiceModel.Proofs.Double.Read
import ServiceModel.Yaml.Quoted

namespace ServiceModel.Notation

open Text (Numeral.valueOf Numeral.isFigure)

/-! ## Strings -/

/-- A character of a string, as it is written. -/
inductive Piece where
  /-- The character itself. -/
  | raw (c : Char)
  /-- A backslash and a letter. -/
  | short (letter : Char)
  /-- A backslash, a small u and digits in base sixteen. -/
  | code (digits : List Char)
  deriving DecidableEq, Repr

/-- The letters behind backslashes, with the codes they stand for. -/
def shorts : List (Char × Nat) :=
  [('"', 34), ('\\', 92), ('/', 47), ('b', 8), ('f', 12), ('n', 10), ('r', 13), ('t', 9)]

namespace Piece

/-- The piece as it is written. -/
def text : Piece → List Char
  | .raw c => [c]
  | .short letter => ['\\', letter]
  | .code digits => '\\' :: 'u' :: digits

/-- The code that the piece stands for. -/
def unit : Piece → Nat
  | .raw c => c.toNat
  | .short letter => (shorts.lookup letter).getD 0
  | .code digits => Numeral.valueOf 16 digits

/-- What is written is a piece of a string. -/
def Spelled : Piece → Prop
  | .raw c => 0x20 ≤ c.toNat ∧ c ≠ '"' ∧ c ≠ '\\'
  | .short letter => letter ∈ shorts.map (·.1)
  | .code digits => digits.length = 4 ∧ ∀ c ∈ digits, Numeral.isFigure 16 c = true

end Piece

/-- A string between its quotes. -/
def quote (pieces : List Piece) : List Char := '"' :: (pieces.flatMap Piece.text ++ ['"'])

/-- The characters that codes stand for: a code of the first half of a character and one of its
second half, next to each other, are the character. -/
def charsOf : List Nat → List Char
  | [] => []
  | [code] => [Char.ofNat code]
  | first :: second :: rest =>
    if (0xd800 ≤ first ∧ first ≤ 0xdbff) ∧ 0xdc00 ≤ second ∧ second ≤ 0xdfff then
      Char.ofNat (0x10000 + (first - 0xd800) * 0x400 + (second - 0xdc00)) :: charsOf rest
    else Char.ofNat first :: charsOf (second :: rest)

/-- The text that a string denotes. -/
def textOf (pieces : List Piece) : String := String.ofList (charsOf (pieces.map Piece.unit))

/-! ## White space -/

/-- White space as it is written, with `tab` where it has tabs. -/
def blank (tab : Char) (space : List Char) : List Char :=
  space.map fun c => if c = '\t' then tab else c

/-- Nothing but white space. -/
def White (space : List Char) : Prop := ∀ c ∈ space, c = ' ' ∨ c = '\t' ∨ c = '\n' ∨ c = '\r'

/-! ## Trees -/

/-- The name of a member with its colon, and the white space on both sides of the colon. -/
structure Label where
  name : List Piece
  gap : List Char
  space : List Char
  deriving DecidableEq, Repr

namespace Label

/-- The label as it is written. -/
def write (tab : Char) (l : Label) : List Char :=
  quote l.name ++ (blank tab l.gap ++ ':' :: blank tab l.space)

/-- What is written is a label. -/
structure Spelled (l : Label) : Prop where
  name : ∀ piece ∈ l.name, piece.Spelled
  gap : White l.gap
  space : White l.space

end Label

mutual

/-- A value as it is written. -/
inductive Tree where
  /-- A truth value, or nothing. -/
  | word (value? : Option Bool)
  | number (negative : Bool) (size : Double.Decimal)
  | string (pieces : List Piece)
  | emptyArray (inside : List Char)
  | array (lead : List Char) (first : Tree) (rest : Items)
  | emptyObject (inside : List Char)
  | object (lead : List Char) (label : Label) (first : Tree) (rest : Members)

/-- What follows an item of an array. -/
inductive Items where
  | stop (space : List Char)
  | more (space lead : List Char) (item : Tree) (rest : Items)

/-- What follows a member of an object. -/
inductive Members where
  | stop (space : List Char)
  | more (space lead : List Char) (label : Label) (item : Tree) (rest : Members)

end

/-- A truth value, or nothing, as it is written. -/
def spelling : Option Bool → List Char
  | none => "null".toList
  | some true => "true".toList
  | some false => "false".toList

/-- The sign of a number. -/
def sign (negative : Bool) : List Char := if negative then ['-'] else []

/-- The value of a number: an integer when it has neither fraction nor exponent. -/
def numberOf (negative : Bool) (size : Double.Decimal) : Primitive :=
  let whole : Int := Double.digitsValue size.whole
  if size.fraction? = none ∧ size.exponent? = none then .int (if negative then -whole else whole)
  else .double (size.nearest negative)

mutual

/-- The text of a value. -/
def Tree.write (tab : Char) : Tree → List Char
  | .word value? => spelling value?
  | .number negative size => sign negative ++ size.text
  | .string pieces => quote pieces
  | .emptyArray inside => '[' :: (blank tab inside ++ [']'])
  | .array lead first rest => '[' :: (blank tab lead ++ (first.write tab ++ rest.write tab))
  | .emptyObject inside => '{' :: (blank tab inside ++ ['}'])
  | .object lead label first rest =>
    '{' :: (blank tab lead ++ (label.write tab ++ (first.write tab ++ rest.write tab)))

def Items.write (tab : Char) : Items → List Char
  | .stop space => blank tab space ++ [']']
  | .more space lead item rest =>
    blank tab space ++ ',' :: (blank tab lead ++ (item.write tab ++ rest.write tab))

def Members.write (tab : Char) : Members → List Char
  | .stop space => blank tab space ++ ['}']
  | .more space lead label item rest =>
    blank tab space ++
      ',' :: (blank tab lead ++ (label.write tab ++ (item.write tab ++ rest.write tab)))

end

mutual

/-- The value that is written. -/
def Tree.value : Tree → Json
  | .word none => .null
  | .word (some b) => .bool b
  | .number negative size => (numberOf negative size).toJson
  | .string pieces => .string (textOf pieces)
  | .emptyArray _ => .array []
  | .array _ first rest => .array (first.value :: rest.values)
  | .emptyObject _ => .object []
  | .object _ label first rest => .object ((textOf label.name, first.value) :: rest.values)

def Items.values : Items → List Json
  | .stop _ => []
  | .more _ _ item rest => item.value :: rest.values

def Members.values : Members → List (String × Json)
  | .stop _ => []
  | .more _ _ label item rest => (textOf label.name, item.value) :: rest.values

end

mutual

/-- What is written is a value. -/
def Tree.Spelled : Tree → Prop
  | .word _ => True
  | .number _ size => size.Strict
  | .string pieces => ∀ piece ∈ pieces, piece.Spelled
  | .emptyArray inside => White inside
  | .array lead first rest => White lead ∧ first.Spelled ∧ rest.Spelled
  | .emptyObject inside => White inside
  | .object lead label first rest => White lead ∧ label.Spelled ∧ first.Spelled ∧ rest.Spelled

def Items.Spelled : Items → Prop
  | .stop space => White space
  | .more space lead item rest => White space ∧ White lead ∧ item.Spelled ∧ rest.Spelled

def Members.Spelled : Members → Prop
  | .stop space => White space
  | .more space lead label item rest =>
    White space ∧ White lead ∧ label.Spelled ∧ item.Spelled ∧ rest.Spelled

end

mutual

/-- No object has two members of one name. -/
def Tree.Distinct : Tree → Prop
  | .array _ first rest => first.Distinct ∧ rest.Distinct
  | .object _ label first rest =>
    textOf label.name ∉ rest.values.map (·.1) ∧ first.Distinct ∧ rest.Distinct
  | _ => True

def Items.Distinct : Items → Prop
  | .stop _ => True
  | .more _ _ item rest => item.Distinct ∧ rest.Distinct

def Members.Distinct : Members → Prop
  | .stop _ => True
  | .more _ _ label item rest =>
    textOf label.name ∉ rest.values.map (·.1) ∧ item.Distinct ∧ rest.Distinct

end

mutual

/-- An integer has not more digits than are read. -/
def Tree.Bounded : Tree → Prop
  | .number _ size => size.Bounded
  | .array _ first rest => first.Bounded ∧ rest.Bounded
  | .object _ _ first rest => first.Bounded ∧ rest.Bounded
  | _ => True

def Items.Bounded : Items → Prop
  | .stop _ => True
  | .more _ _ item rest => item.Bounded ∧ rest.Bounded

def Members.Bounded : Members → Prop
  | .stop _ => True
  | .more _ _ _ item rest => item.Bounded ∧ rest.Bounded

end

/-! ## What the markup language admits -/

/-- A character that stands for itself is one that a text may hold, and ends no line. No code is
one of the halves of a character: the markup language does not put them together. -/
def Piece.Admitted : Piece → Prop
  | .raw c => Yaml.isAllowed c = true ∧ Yaml.isBreak c = false
  | .short _ => True
  | .code digits => ¬ (0xd800 ≤ Numeral.valueOf 16 digits ∧ Numeral.valueOf 16 digits ≤ 0xdfff)

/-- The colon of a member stands on the line of the name and not too far behind its start. -/
structure Label.Admitted (l : Label) : Prop where
  name : ∀ piece ∈ l.name, piece.Admitted
  line : ∀ c ∈ l.gap, Yaml.isBreak c = false
  near : (quote l.name).length + l.gap.length ≤ 1024

mutual

/-- The markup language admits all strings and all labels. -/
def Tree.Admitted : Tree → Prop
  | .string pieces => ∀ piece ∈ pieces, piece.Admitted
  | .array _ first rest => first.Admitted ∧ rest.Admitted
  | .object _ label first rest => label.Admitted ∧ first.Admitted ∧ rest.Admitted
  | _ => True

def Items.Admitted : Items → Prop
  | .stop _ => True
  | .more _ _ item rest => item.Admitted ∧ rest.Admitted

def Members.Admitted : Members → Prop
  | .stop _ => True
  | .more _ _ label item rest => label.Admitted ∧ item.Admitted ∧ rest.Admitted

end

/-! ## Documents -/

/-- Is the value an array or an object? -/
def Tree.isCollection : Tree → Bool
  | .word _ | .number _ _ | .string _ => false
  | _ => true

/-- A value with white space around it. -/
structure Document where
  lead : List Char
  root : Tree
  trail : List Char

namespace Document

/-- The text of a document, with `tab` where its white space has tabs. -/
def write (tab : Char) (d : Document) : List Char :=
  blank tab d.lead ++ (d.root.write tab ++ blank tab d.trail)

/-- The text of a document. -/
def text (d : Document) : String := String.ofList (d.write '\t')

/-- What is written is a document. -/
structure Formed (d : Document) : Prop where
  lead : White d.lead
  root : d.root.Spelled
  trail : White d.trail

/-- No object of the document repeats a name, and no integer is too long. -/
structure Spelled (d : Document) : Prop extends Formed d where
  distinct : d.root.Distinct
  bounded : d.root.Bounded

/-- The markup language admits the document. Around a value that is no collection there are no
tabs. -/
structure Admitted (d : Document) : Prop where
  root : d.root.Admitted
  untabbed : d.root.isCollection = false → '\t' ∉ d.lead ++ d.trail

end Document

end ServiceModel.Notation
