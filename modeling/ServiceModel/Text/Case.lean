/-
Upper and lower case of whole texts. Letters of the basic alphabet are mapped by arithmetic, all
others by the table; one letter may become several, and a sigma at the end of a word has a lower
case of its own.
-/
import ServiceModel.Text.CaseTable

namespace ServiceModel.Text

namespace CaseTable

/-- Membership in a table of runs. -/
def has (table : List (Nat × Nat × Nat)) (n : Nat) : Bool :=
  table.any fun (first, last, step) => first ≤ n && n ≤ last && (n - first) % step == 0

/-- The image of a code point under a table of shifted runs and a table of expansions. -/
def image (table : List (Nat × Nat × Nat × Nat)) (several : List (Nat × List Nat)) (n : Nat) :
    List Char :=
  match several.lookup n with
  | some many => many.map Char.ofNat
  | none =>
    let run? := table.find? fun (first, last, step, _) =>
      first ≤ n && n ≤ last && (n - first) % step == 0
    match run? with
    | some (first, _, _, target) => [Char.ofNat (n + target - first)]
    | none => [Char.ofNat n]

end CaseTable

/-- The lower case of one letter, wherever it stands. -/
def lowerChar (c : Char) : List Char :=
  if c.toNat < 128 then [c.toLower]
  else CaseTable.image CaseTable.toLower CaseTable.toLowerSeveral c.toNat

/-- The upper case of one letter. -/
def upperChar (c : Char) : List Char :=
  if c.toNat < 128 then [c.toUpper]
  else CaseTable.image CaseTable.toUpper CaseTable.toUpperSeveral c.toNat

/-- Upper case letters. -/
def isUpperChar (c : Char) : Bool :=
  if c.toNat < 128 then c.isUpper else CaseTable.has CaseTable.upper c.toNat

/-- Lower case and title case letters. -/
def isLowerChar (c : Char) : Bool :=
  if c.toNat < 128 then c.isLower
  else CaseTable.has CaseTable.lower c.toNat || CaseTable.has CaseTable.title c.toNat

/-- Characters that do not end the search for a neighbouring letter. -/
def isIgnorable (c : Char) : Bool :=
  CaseTable.ignorable.any fun (first, last) => first ≤ c.toNat && c.toNat ≤ last

/-- Is the nearest character that is not passed over a letter with case? -/
def meetsLetter (text : List Char) : Bool :=
  match text.dropWhile isIgnorable with
  | [] => false
  | c :: _ => isUpperChar c || isLowerChar c

/-- The capital sigma, whose lower case depends on its place. -/
def sigma : Char := Char.ofNat 0x3a3

/-- The lower case of a text, after the characters of `before` in reverse. -/
def lowerAfter (before : List Char) : List Char → List Char
  | [] => []
  | c :: rest =>
    let image :=
      if c = sigma then
        [Char.ofNat (if meetsLetter before && !meetsLetter rest then 0x3c2 else 0x3c3)]
      else lowerChar c
    image ++ lowerAfter (c :: before) rest

/-- The text in lower case. -/
def lowercase (text : List Char) : List Char := lowerAfter [] text

/-- The text in upper case. -/
def uppercase (text : List Char) : List Char := text.flatMap upperChar

/-- Some letter is upper case, and none is lower or title case. -/
def isUppercase (text : List Char) : Bool :=
  text.any isUpperChar && !text.any isLowerChar

/-- The first character in upper case, the others as they are. -/
def upperFirst : List Char → List Char
  | [] => []
  | c :: rest => upperChar c ++ rest

end ServiceModel.Text
