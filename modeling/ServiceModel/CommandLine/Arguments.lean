/-
The arguments of the command line. An option may be shortened as long as it stays unambiguous,
its value may follow it or be attached to it by an equals sign, and of options that are given
twice the last counts.
-/
import ServiceModel.Guards
import ServiceModel.Text.Numeral
import ServiceModel.Text.Quoted

namespace ServiceModel.CommandLine

open Text (quoted)

/-- What an option is about. -/
inductive Setting where
  | help
  | input
  | output
  | strict
  | validate
  | maxDepth
  | verbose
  deriving DecidableEq, Repr

/-- The spellings of the options. -/
def spellings : List (String × Setting) :=
  [("-h", .help), ("--help", .help), ("--input", .input), ("--output", .output),
    ("--strict", .strict), ("--validate", .validate), ("--max-depth", .maxDepth),
    ("--verbose", .verbose)]

namespace Setting

/-- Does the option have a value? -/
def hasValue : Setting → Bool
  | .input | .output | .maxDepth => true
  | _ => false

/-- All spellings of the option. -/
def name (s : Setting) : String :=
  String.intercalate "/" ((spellings.filter (·.2 == s)).map (·.1))

end Setting

/-- Why arguments are refused. -/
inductive ArgumentError where
  | ambiguous (given : String) (candidates : List String)
  | needsValue (setting : Setting)
  | takesNoValue (setting : Setting) (value : String)
  | notInteger (setting : Setting) (value : String)
  | noInput
  | unrecognized (given : List String)
  deriving DecidableEq, Repr

/-- What is wrong with the arguments. -/
def ArgumentError.message : ArgumentError → String
  | .ambiguous given candidates =>
    "ambiguous option: " ++ given ++ " could match " ++ String.intercalate ", " candidates
  | .needsValue s => "argument " ++ s.name ++ ": expected one argument"
  | .takesNoValue s value =>
    "argument " ++ s.name ++ ": ignored explicit argument " ++ quoted value
  | .notInteger s value => "argument " ++ s.name ++ ": invalid int value: " ++ quoted value
  | .noInput => "the following arguments are required: --input"
  | .unrecognized given => "unrecognized arguments: " ++ String.intercalate " " given

/-! ## Words -/

/-- What an argument is, by its looks. -/
inductive Word where
  /-- An option, with the value that an equals sign attaches to it. -/
  | option (setting : Setting) (attached : Option String)
  /-- An option of one letter, with what follows the letter or is attached to it by an equals
  sign. -/
  | letter (setting : Setting) (rest : List Char)
  /-- Something that looks like an option. -/
  | unknown (text : String)
  /-- What ends the options. -/
  | separator
  | value (text : String)
  deriving DecidableEq, Repr

/-- The text before the first equals sign and the text after it, if there is one. -/
def splitValue (text : List Char) : List Char × Option (List Char) :=
  match text.span (· ≠ '=') with
  | (name, _ :: value) => (name, some value)
  | (name, []) => (name, none)

/-- Digits, perhaps with a point before the last of them or before them all. -/
def isPointed (text : List Char) : Bool :=
  let isDigit (c : Char) := (Text.digit? c).isSome
  match text.dropWhile isDigit with
  | [] => !text.isEmpty
  | '.' :: fraction => !fraction.isEmpty && fraction.all isDigit
  | _ => false

/-- Does a text look like a negative number? A line feed at its end does not count. -/
def isNegativeNumber (text : List Char) : Bool :=
  match text with
  | '-' :: digits => isPointed digits || (digits.getLast? == some '\n' && isPointed digits.dropLast)
  | _ => false

/-- The option of one letter that a text starts with. -/
def letterOption? : List Char → Option Word
  | '-' :: letter :: rest =>
    (spellings.lookup (String.ofList ['-', letter])).map fun setting => .letter setting rest
  | _ => none

/-- The options that a text may be short for, and what they are with the value in it. -/
def candidates (text : List Char) : List (String × Word) :=
  match text with
  | '-' :: '-' :: _ =>
    let (name, value) := splitValue text
    (spellings.filter fun s => name.isPrefixOf s.1.toList).map fun s =>
      (s.1, .option s.2 (value.map String.ofList))
  | _ => []

/-- What a text is that is an option with its value, written in full. -/
def inFull? (text : List Char) : Option Word :=
  match splitValue text with
  | (name, some value) =>
    (spellings.lookup (String.ofList name)).map fun setting =>
      if name.length = 2 then .letter setting value
      else .option setting (some (String.ofList value))
  | (_, none) => none

/-- What an argument is that does not stand behind the end of the options. -/
def classify (arg : String) : Except ArgumentError Word :=
  let text := arg.toList
  if text.head? ≠ some '-' then .ok (.value arg)
  else
    match spellings.lookup arg with
    | some setting => .ok (.option setting none)
    | none =>
      if text.length = 1 then .ok (.value arg)
      else
        match (inFull? text).or (letterOption? text) with
        | some word => .ok word
        | none =>
          match candidates text with
          | [(_, word)] => .ok word
          | [] =>
            if isNegativeNumber text || text.contains ' ' then .ok (.value arg)
            else .ok (.unknown arg)
          | several => .error (.ambiguous arg (several.map (·.1)))

/-- What the arguments are; everything behind two hyphens is a value. -/
def words : List String → Except ArgumentError (List Word)
  | [] => .ok []
  | arg :: rest =>
    if arg = "--" then .ok (.separator :: rest.map .value)
    else do
      let word ← classify arg
      return word :: (← words rest)

/-! ## Arguments -/

/-- What is asked for. -/
structure Arguments where
  input : Option String := none
  output : Option String := none
  strict : Bool := false
  validate : Bool := false
  maxDepth : Int := Guards.defaultLimit
  verbose : Bool := false
  deriving DecidableEq, Repr, Inhabited

/-- A request: for help, or for the conversion of an input. -/
inductive Request where
  | help
  | convert (input : String) (arguments : Arguments)
  deriving DecidableEq, Repr

namespace Arguments

/-- The arguments with one more option set to a value. -/
def withValue (a : Arguments) (setting : Setting) (value : String) :
    Except ArgumentError Arguments :=
  match setting with
  | .input => .ok { a with input := some value }
  | .output => .ok { a with output := some value }
  | .maxDepth =>
    match Text.Numeral.readDecimal value.toList with
    | some limit => .ok { a with maxDepth := limit }
    | none => .error (.notInteger setting value)
  | _ => .error (.takesNoValue setting value)

/-- The arguments with one more option set. -/
def withFlag (a : Arguments) (setting : Setting) : Arguments :=
  match setting with
  | .strict => { a with strict := true }
  | .validate => { a with validate := true }
  | .verbose => { a with verbose := true }
  | _ => a

/-- What the letters after one that asks for help say: the letter may be repeated, and all else
is refused. -/
def helpLetters (setting : Setting) (letters : List Char) : Except ArgumentError Request :=
  let others := letters.dropWhile (· = 'h')
  if letters.isEmpty || !others.isEmpty then .error (.takesNoValue setting (String.ofList others))
  else .ok .help

/-- What remains to be asked for when all words are read. -/
def finish (a : Arguments) (extras : List String) : Except ArgumentError Request :=
  match a.input with
  | none => .error .noInput
  | some input => if extras.isEmpty then .ok (.convert input a) else .error (.unrecognized extras)

/-- What words ask for, after the arguments and the words without use that were read before. -/
def read (a : Arguments) (extras : List String) : List Word → Except ArgumentError Request
  | [] => a.finish extras
  | .value text :: rest => a.read (extras ++ [text]) rest
  | .unknown text :: rest => a.read (extras ++ [text]) rest
  | .separator :: rest => a.read (extras ++ ["--"]) rest
  | .letter setting letters :: _ => helpLetters setting letters
  | .option setting (some value) :: rest =>
    match a.withValue setting value with
    | .ok b => b.read extras rest
    | .error e => .error e
  | .option setting none :: rest =>
    if setting.hasValue then
      match rest with
      | .value text :: others =>
        match a.withValue setting text with
        | .ok b => b.read extras others
        | .error e => .error e
      | _ => .error (.needsValue setting)
    else if setting = .help then .ok .help
    else (a.withFlag setting).read extras rest

end Arguments

/-- What the arguments ask for. -/
def request (args : List String) : Except ArgumentError Request := do
  ({} : Arguments).read [] (← words args)

end ServiceModel.CommandLine
