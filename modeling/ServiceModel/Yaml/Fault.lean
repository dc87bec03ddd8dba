/-
The ways in which a text fails to be a document of the markup language: it is malformed, or a part
of it that is to be a number, a truth value or a character is none.
-/
namespace ServiceModel.Yaml

/-- Why a text has no reading. -/
inductive Fault where
  /-- The text breaks a rule of the language. -/
  | malformed
  /-- A text that is to be a number spells none, or has too many digits. -/
  | number
  /-- A text tagged as a number is empty. -/
  | emptyNumber
  /-- A text tagged as a truth value is none. -/
  | boolean
  /-- A number in base sixty has too many places. -/
  | tooManyPlaces
  /-- An escape names a code point beyond the last character. -/
  | codePoint
  /-- An escape names a code point of more than 31 bits. -/
  | wideCodePoint
  deriving DecidableEq, Repr

end ServiceModel.Yaml
