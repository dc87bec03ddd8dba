/-
The singular of an English noun, by a list of nouns without plural, a list of irregular plurals
and a list of endings tried in order. Letters are compared without regard to case, and the answer
keeps the case style of the question.
-/
import ServiceModel.Text.Case

namespace ServiceModel.Naming

open ServiceModel.Text

/-- Nouns that are their own plural. -/
def uncountable : List String :=
  ["equipment", "feedback", "fish", "information", "metadata", "money", "news", "rice", "series",
    "sheep", "species", "status", "traffic"]

/-- Plurals that follow no ending rule. -/
def irregular : List (String × String) :=
  [("children", "child"), ("feet", "foot"), ("geese", "goose"), ("men", "man"), ("mice", "mouse"),
    ("oxen", "ox"), ("people", "person"), ("teeth", "tooth"), ("women", "woman")]

/-- What has to stand before a plural ending. -/
inductive Stem where
  /-- One of these texts. -/
  | oneOf (texts : List String)
  /-- Any single character that is no vowel. -/
  | consonant

/-- A plural ending after a stem, and what stands in its place in the singular. -/
structure EndingRule where
  stem : Stem
  plural : String
  singular : String

/-- The ending rules in the order in which they are tried. -/
def endingRules : List EndingRule := [
  ⟨.oneOf ["quiz"], "zes", ""⟩,
  ⟨.oneOf ["matr", "vert", "ind"], "ices", "ix"⟩,
  ⟨.oneOf ["movie", "cookie", "zombie"], "s", ""⟩,
  ⟨.consonant, "ies", "y"⟩,
  ⟨.oneOf ["ss", "sh", "ch", "x", "z"], "es", ""⟩,
  ⟨.oneOf ["alias", "status", "bus"], "es", ""⟩,
  ⟨.oneOf ["analy", "ba", "diagno", "parenthe", "progno", "synop", "the"], "ses", "sis"⟩,
  ⟨.oneOf ["l", "r"], "ves", "f"⟩,
  ⟨.oneOf ["kni", "wi", "li"], "ves", "fe"⟩,
  ⟨.oneOf ["ss", "us", "is"], "", ""⟩,
  ⟨.oneOf [""], "s", ""⟩]

/-- Does the letter `pattern` of the lower case stand for `c`, whatever the case of `c`? The
dotless i and the long s count as an i and an s. -/
def matchesLetter (pattern c : Char) : Bool :=
  let folded := (lowerChar c).headD c
  folded == pattern || (pattern == 'i' && c.toNat == 0x131) || (pattern == 's' && c.toNat == 0x17f)

/-- Do the texts agree letter by letter? -/
def matchesText : List Char → List Char → Bool
  | [], [] => true
  | p :: pattern, c :: text => matchesLetter p c && matchesText pattern text
  | _, _ => false

/-- Does the text end with the pattern? -/
def endsWithText (pattern text : List Char) : Bool :=
  pattern.length ≤ text.length && matchesText pattern (text.drop (text.length - pattern.length))

/-- The vowels, a `y` counting as one. -/
def vowels : List Char := ['a', 'e', 'i', 'o', 'u', 'y']

/-- A single character that is no vowel. -/
def isConsonant (c : Char) : Bool := !vowels.any (matchesLetter · c)

/-- Does the text end with the stem? -/
def Stem.endsText (stem : Stem) (text : List Char) : Bool :=
  match stem with
  | .oneOf texts => texts.any fun s => endsWithText s.toList text
  | .consonant => text.getLast?.any isConsonant

namespace EndingRule

/-- Is the text a stem of the rule with its plural ending? -/
def fits (rule : EndingRule) (text : List Char) : Bool :=
  endsWithText rule.plural.toList text &&
    rule.stem.endsText (text.take (text.length - rule.plural.length))

/-- The text with the singular ending in place of the plural one, when the rule fits. -/
def apply (rule : EndingRule) (text : List Char) : List Char :=
  if rule.fits text then text.take (text.length - rule.plural.length) ++ rule.singular.toList
  else text

end EndingRule

/-- The text without a line feed at its end, and that line feed. Endings are looked for in front of
it. -/
def splitLineFeed (text : List Char) : List Char × List Char :=
  match text.getLast? with
  | some '\n' => (text.dropLast, ['\n'])
  | _ => (text, [])

/-- The length of the longest common head of two texts. -/
def commonLength : List Char → List Char → Nat
  | a :: as, b :: bs => if a = b then commonLength as bs + 1 else 0
  | _, _ => 0

/-- `word`, which is in lower case, in the case style of `model`: all capitals, a leading capital,
all lower case, or mixed, where the part that both share is taken from `model`. -/
def restoreCase (model word : List Char) : List Char :=
  if isUppercase model then uppercase word
  else if model.head?.any isUpperChar then upperFirst word
  else if model = lowercase model then word
  else
    let shared := commonLength (lowercase model) word
    model.take shared ++ word.drop shared

/-- The singular of a noun, or the word itself if no rule applies. -/
def singular (word : String) : String :=
  let text := word.toList
  let lowered := lowercase text
  if uncountable.contains (String.ofList lowered) then word
  else match irregular.lookup (String.ofList lowered) with
    | some answer => String.ofList (restoreCase text answer.toList)
    | none =>
      match endingRules.find? fun rule => rule.fits (splitLineFeed text).1 with
      | some rule =>
        let (body, feed) := splitLineFeed lowered
        String.ofList (restoreCase text (rule.apply body ++ feed))
      | none => word

end ServiceModel.Naming
