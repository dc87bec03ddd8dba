/-
What the program does: it reads the description that its arguments name, converts it, and writes
the service or says why there is none. All of it but the access to files is a function of the
arguments and of what the input file holds.
-/
import ServiceModel.CommandLine.Arguments
import ServiceModel.CommandLine.Files
import ServiceModel.Conversion
import ServiceModel.Json.Print
import ServiceModel.Service.Encode
import ServiceModel.Service.Validation
import ServiceModel.Text.Utf8

namespace ServiceModel.CommandLine

open Service

/-! ## Reading -/

/-- The text with every line break as a single line feed. -/
def unixLines : List Char → List Char
  | '\r' :: '\n' :: rest => '\n' :: unixLines rest
  | '\r' :: rest => '\n' :: unixLines rest
  | c :: rest => c :: unixLines rest
  | [] => []

/-- The text of a file, from its bytes. -/
def textOf (path : Path) (bytes : List UInt8) : Except Failure String :=
  match Text.Utf8.decode bytes with
  | .ok text => .ok (String.ofList (unixLines text.toList))
  | .error fault => .error (.load (.unreadable path.text fault.message))

/-- Why a file cannot be loaded. -/
def unreadable (path : Path) (reason : String) : Failure := .load (.unreadable path.text reason)

/-! ## Messages -/

/-- How much an entry of the journal matters. -/
inductive Level where
  | debug
  | warning
  deriving DecidableEq, Repr

/-- The name of a level. -/
def Level.name : Level → String
  | .debug => "DEBUG"
  | .warning => "WARNING"

/-- A message about the progress of a conversion, with the part of the program that it is from. -/
structure LogLine where
  level : Level
  part : String
  message : String
  deriving DecidableEq, Repr

namespace LogLine

/-- The message about an entry of the journal of a conversion. -/
def ofEntry (source : String) : Entry → LogLine
  | .type t => ⟨.debug, "synthesizer", "Synthesized anonymous type " ++ t.name.value⟩
  | .enum e =>
    ⟨.debug, "synthesizer", "Synthesized enum " ++ e.name.value ++ " with " ++
      toString e.values.length ++ " values"⟩
  | .union u =>
    ⟨.debug, "synthesizer", "Synthesized union " ++ u.name.value ++ " with " ++
      toString u.members.length ++ " members"⟩
  | .violation v =>
    ⟨.warning, "diagnostics", v.feature.message ++ " (" ++ source ++ " at " ++ v.loc ++ ")"⟩
  | .interfaces count => ⟨.debug, "interfaces", "Found " ++ toString count ++ " interfaces"⟩
  | .component name => ⟨.debug, "parser", "Synthesized definition " ++ name⟩

/-- The message about the end of a conversion. -/
def ofService (source : String) (s : Service) (violations : Nat) : LogLine :=
  ⟨.debug, "parser", "Parsed " ++ source ++ ": " ++ toString s.interfaces.length ++
    " interfaces, " ++ toString s.types.length ++ " types, " ++ toString s.enums.length ++
    " enums, " ++ toString s.unions.length ++ " unions, " ++ toString violations ++ " violations"⟩

/-- The line that is written for a message, if one is: without a request for more, only warnings
are written, and only what they say. -/
def line? (verbose : Bool) (l : LogLine) : Option String :=
  if verbose then
    some (l.level.name ++ " openapi_to_ir." ++ l.part ++ ": " ++ l.message ++ "\n")
  else if l.level = .warning then some (l.message ++ "\n")
  else none

end LogLine

/-- The lines for a list of messages. -/
def logText (verbose : Bool) (lines : List LogLine) : String :=
  String.join (lines.filterMap (·.line? verbose))

/-- The warning at the end of a conversion. -/
def warning (v : Violation) : String := "Warning: " ++ v.feature.message ++ " at " ++ v.loc ++ "\n"

/-- A message that ends the program. -/
def errorText (message : String) : String := "openapi-to-ir: error: " ++ message ++ "\n"

/-- How the program is used. -/
def helpText : String :=
  "usage: openapi-to-ir [-h] --input INPUT [--output OUTPUT] [--strict]\n" ++
  "                     [--validate] [--max-depth MAX_DEPTH] [--verbose]\n\n" ++
  "Convert an OpenAPI 3.x document (YAML or JSON) into a service IR\n\n" ++
  "options:\n" ++
  "  -h, --help            show this help message and exit\n" ++
  "  --input INPUT         Path to an OpenAPI YAML or JSON file\n" ++
  "  --output OUTPUT       Write the IR JSON here instead of stdout\n" ++
  "  --strict              Validate the document against the OpenAPI object model\n" ++
  "                        before parsing\n" ++
  "  --validate            Run structural validation on the produced IR\n" ++
  "  --max-depth MAX_DEPTH\n" ++
  "                        Maximum nesting of reference and composition chains\n" ++
  "  --verbose             Log pipeline progress to stderr\n"

/-! ## Conversion -/

/-- What the conversion of an input has to say, and its service or why there is none. -/
structure Converted where
  messages : String
  service : Except Failure Service

/-- The conversion of the text of an input. -/
def convertText [LanguageModel] (path : Path) (a : Arguments) (text : String) : Converted :=
  let built := convert ⟨path.text, a.maxDepth, a.strict⟩ text
  let source := sourceName path.text
  let violations := violationsIn built.journal
  let progress := built.journal.map (LogLine.ofEntry source)
  match built.outcome with
  | .error e => ⟨logText a.verbose progress, .error e⟩
  | .ok service =>
    let done := LogLine.ofService source service violations.length
    ⟨logText a.verbose (progress ++ [done]) ++ String.join (violations.map warning), .ok service⟩

/-- The conversion of the bytes of an input, if there are any. -/
def convertInput [LanguageModel] (path : Path) (a : Arguments)
    (input : Except String (List UInt8)) : Converted :=
  match input with
  | .error reason => ⟨"", .error (unreadable path reason)⟩
  | .ok bytes =>
    match textOf path bytes with
    | .error e => ⟨"", .error e⟩
    | .ok text => convertText path a text

/-- A service as it is written. -/
def rendered (service : Service) : String := service.toJson.print ++ "\n"

/-- The path that the service is written to, if it is not printed. -/
def Arguments.outputPath? (a : Arguments) : Option Path :=
  match a.output with
  | some output => if output.isEmpty then none else some (Path.ofText output)
  | none => none

/-- What is said in the end: the exit code and the report of the validation, if it was asked for
and found something. -/
def verdict (a : Arguments) (service : Service) : UInt32 × String :=
  if a.validate then
    match service.defects with
    | [] => (0, "")
    | defects => (1, Service.report defects ++ "\n")
  else (0, "")

/-- Why a service cannot be written. -/
def unwritable (path : Path) (reason : String) : String :=
  "Failed to write " ++ path.text ++ ": " ++ reason

/-! ## Runs -/

/-- What a run leaves behind. -/
structure Outcome where
  exit : UInt32
  stdout : String
  stderr : String
  files : Files

/-- Why a run is given up without a message. -/
inductive Breakdown where
  /-- The text of the input holds what no text may hold, or a scalar that does not fit its tag. -/
  | text (error : ReadError)
  /-- There can be no file at a path. -/
  | path (path : Path)
  deriving DecidableEq, Repr

/-- The exit code of a run that ends with a message. -/
def failureExit : UInt32 := 2

/-- How a run goes on when the service is there. -/
def deliver (a : Arguments) (files : Files) (messages : String) (service : Service) :
    Except Breakdown Outcome :=
  let (exit, report) := verdict a service
  match a.outputPath? with
  | none => .ok ⟨exit, rendered service, messages ++ report, files⟩
  | some path =>
    if !path.isNameable then .error (.path path)
    else
      match files.write path (rendered service).toUTF8.toList with
      | .ok files => .ok ⟨exit, "", messages ++ report, files⟩
      | .error e =>
        .ok ⟨failureExit, "", messages ++ errorText (unwritable path (e.message path)), files⟩

/-- A run of the program. -/
def run [LanguageModel] (args : List String) (files : Files) : Except Breakdown Outcome :=
  match request args with
  | .error e => .ok ⟨failureExit, "", errorText e.message, files⟩
  | .ok .help => .ok ⟨0, helpText, "", files⟩
  | .ok (.convert input a) =>
    let path := Path.ofText input
    if !path.isNameable then .error (.path path)
    else
      let converted := convertInput path a ((files.read path).mapError (·.message path))
      match converted.service with
      | .ok service => deliver a files converted.messages service
      | .error e =>
        match e.unreported? with
        | some error => .error (.text error)
        | none => .ok ⟨failureExit, "", converted.messages ++ errorText e.message, files⟩

end ServiceModel.CommandLine
