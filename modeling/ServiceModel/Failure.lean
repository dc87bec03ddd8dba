/-
Why a description yields no service: its text is no document, it cannot be loaded, a node has not
the shape that is asked for, a reference leads nowhere, or a chain of references does not end.
Each cause has one message.
-/
import ServiceModel.Document.Read
import ServiceModel.Text.Quoted

namespace ServiceModel

open Text (Position quoted)

/-- A place as it is named in messages. -/
def place (p : Position) : String := s!"line {p.line}, column {p.column}"

/-- A value as it is shown in messages. -/
def Primitive.shown : Primitive → String
  | .text s => quoted s
  | value => value.asText

/-- A description that is not loaded. -/
inductive LoadError where
  /-- The version of the description language is missing or blank. -/
  | noVersion
  /-- The version is not supported. -/
  | unsupportedVersion (version : String)
  /-- The description is no object. -/
  | notMapping (source : String)
  /-- The description does not conform to the description language. The reason is empty if no words
  are found for it. -/
  | invalid (source reason : String)
  /-- The file cannot be read. -/
  | unreadable (path reason : String)
  deriving DecidableEq, Repr

/-- A node that has not the shape asked for. -/
inductive ShapeError where
  | notObject (what : String) (start : Position)
  | missingText (key what : String) (start : Position)
  | notArray (key : String) (start : Position)
  | notLiterals (key : String) (start : Position)
  | notLiteral (start : Position)
  | unknownSchema (start : Position)
  | unknownScheme (start : Position)
  | noInfo
  | targetNotObject (pointer : String) (start : Position)
  | targetNotSchema (pointer : String) (start : Position)
  | targetNotScheme (pointer : String)
  | noItems (start : Position)
  | noSchema (parameter : String) (start : Position)
  | noMajorVersion (version : Primitive)
  deriving DecidableEq, Repr

/-- A pointer that leads nowhere. -/
inductive PointerError where
  | notLocal (pointer : String)
  | unresolvable (pointer : String)
  deriving DecidableEq, Repr

/-- A chain that does not end. -/
inductive CycleError where
  /-- The last key occurs among the others. -/
  | chain (keys : List String)
  /-- Nothing more may be entered, the key included. -/
  | tooDeep (limit : Int) (key : String)
  deriving DecidableEq, Repr

/-- Why a description yields no service. -/
inductive Failure where
  | read (error : ReadError)
  | load (error : LoadError)
  | shape (error : ShapeError)
  | pointer (error : PointerError)
  | cycle (error : CycleError)
  deriving DecidableEq, Repr

namespace LoadError

def message : LoadError → String
  | .noVersion => "Missing or invalid 'openapi' version field"
  | .unsupportedVersion version =>
    "Unsupported OpenAPI version " ++ quoted version ++ "; expected 3.x"
  | .notMapping source => "OpenAPI document must be a mapping: " ++ source
  | .invalid source reason =>
    "OpenAPI schema validation failed for " ++ source ++
      if reason.isEmpty then "" else ": " ++ reason
  | .unreadable path reason => "Failed to read OpenAPI file " ++ path ++ ": " ++ reason

end LoadError

namespace ShapeError

def message : ShapeError → String
  | .notObject what p => "Expected an object for " ++ what ++ " at " ++ place p
  | .missingText key what p =>
    "Missing required string field '" ++ key ++ "' on " ++ what ++ " at " ++ place p
  | .notArray key p => "Expected an array for '" ++ key ++ "' at " ++ place p
  | .notLiterals key p => "Expected literal items in '" ++ key ++ "' at " ++ place p
  | .notLiteral p => "Expected a literal value at " ++ place p
  | .unknownSchema p => "Unknown schema definition at " ++ place p
  | .unknownScheme p => "Unknown security scheme type at " ++ place p
  | .noInfo => "Missing required field 'info' on OpenAPI document"
  | .targetNotObject pointer p =>
    "Reference '" ++ pointer ++ "' does not address an object (" ++ place p ++ ")"
  | .targetNotSchema pointer p =>
    "Cannot resolve reference '" ++ pointer ++ "' to a schema (" ++ place p ++ ")"
  | .targetNotScheme pointer =>
    "Cannot resolve reference '" ++ pointer ++ "' to a security scheme"
  | .noItems p => "Expected array items but found none in array schema at " ++ place p
  | .noSchema parameter p => "Parameter '" ++ parameter ++ "' has no schema at " ++ place p
  | .noMajorVersion version =>
    "Cannot parse a major version from info.version " ++ version.shown

end ShapeError

namespace PointerError

def message : PointerError → String
  | .notLocal pointer => "Only local references are currently supported: " ++ pointer
  | .unresolvable pointer => "Unresolvable reference: " ++ pointer

end PointerError

namespace CycleError

def message : CycleError → String
  | .chain keys => "Cyclic reference chain: " ++ String.intercalate " -> " keys
  | .tooDeep limit key =>
    "Reference nesting exceeds the maximum depth of " ++ toString limit ++ " at " ++ key

end CycleError

/-- What went wrong. -/
def Failure.message : Failure → String
  | .read e => e.message
  | .load e => e.message
  | .shape e => e.message
  | .pointer e => e.message
  | .cycle e => e.message

/-- The error in the text that has no report of its own, if the failure is one. -/
def Failure.unreported? : Failure → Option ReadError
  | .read e => if e.isReported then none else some e
  | _ => none

end ServiceModel
