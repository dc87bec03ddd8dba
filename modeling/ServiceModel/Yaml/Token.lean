/-
The tokens of the markup language, each with the span it takes. Tokens that stand for indentation
take none.
-/
import ServiceModel.Text.Range
import ServiceModel.Yaml.Fault

namespace ServiceModel.Yaml

open ServiceModel.Text

/-- How a scalar is written. -/
inductive ScalarForm where
  | plain
  /-- Between quotes or as a block. -/
  | marked
  /-- Between double quotes, with escapes for halves of characters. -/
  | halved
  deriving DecidableEq, Repr

/-- What a token is. -/
inductive TokenKind where
  /-- The version that a text declares. -/
  | version (major : Nat)
  /-- A shorthand for tags and what it stands for. -/
  | shorthand (handle : String) (lead : String)
  /-- A directive without meaning. -/
  | otherDirective
  | documentStart
  | documentEnd
  | textEnd
  | blockSequence
  | blockMapping
  | blockEnd
  | openSequence
  | closeSequence
  | openMapping
  | closeMapping
  | blockEntry
  | flowEntry
  | key
  | value
  | alias (name : String)
  | anchor (name : String)
  /-- A tag: the shorthand it uses, if any, and the rest. -/
  | tag (handle : Option String) (suffix : String)
  | scalar (text : String) (form : ScalarForm)
  /-- The place from which the text has no tokens. -/
  | fault (fault : Fault)
  deriving DecidableEq, Repr

/-- A token with its span. -/
structure Token where
  kind : TokenKind
  start : Position
  stop : Position
  deriving DecidableEq, Repr

end ServiceModel.Yaml
