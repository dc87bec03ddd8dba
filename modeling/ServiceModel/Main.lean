/-
The program: the command line with access to the files of the system.
-/
import ServiceModel.CommandLine.Run

namespace ServiceModel.CommandLine

/-- The number that the system has for an error, if the error is about a file. -/
def numberOf : IO.Error → Option UInt32
  | .noFileOrDirectory _ number _ => some number
  | .inappropriateType _ number _ => number
  | .invalidArgument _ number _ => number
  | .resourceExhausted _ number _ => number
  | _ => none

/-- Why a file cannot be read or written. -/
def reasonOf (path : Path) (e : IO.Error) : String :=
  match (numberOf e).bind fun number => FileError.ofNumber? number.toNat with
  | some error => error.message path
  | none => toString e

/-- The bytes of a file, or why it cannot be read. -/
def readInput (path : Path) : IO (Except String (List UInt8)) := do
  try
    let bytes ← IO.FS.readBinFile path.text
    return .ok bytes.toList
  catch e => return .error (reasonOf path e)

/-- Writes a text to a file; when that fails, gives the reason. -/
def writeOutput (path : Path) (text : String) : IO (Option String) := do
  try
    IO.FS.writeFile path.text text
    return none
  catch e => return some (reasonOf path e)

/-- Ends with a message. -/
def endWith (message : String) : IO UInt32 := do
  IO.eprint (errorText message)
  return failureExit

end ServiceModel.CommandLine

open ServiceModel.CommandLine in
def main (args : List String) : IO UInt32 := do
  match request args with
  | .error e => endWith e.message
  | .ok .help => do
    IO.print helpText
    return 0
  | .ok (.convert input a) => do
    let path := Path.ofText input
    let converted := convertInput path a (← readInput path)
    IO.eprint converted.messages
    match converted.service with
    | .error e => endWith e.message
    | .ok service => do
      match a.outputPath? with
      | none => IO.print (rendered service)
      | some output =>
        if let some reason ← writeOutput output (rendered service) then
          return ← endWith (unwritable output reason)
      let (exit, report) := verdict a service
      IO.eprint report
      return exit
