/-
The major version that a version starts with, and the versions of the description language that
are understood.
-/
import ServiceModel.OpenApi.Description
import ServiceModel.Text.Numeral

namespace ServiceModel

open Text (isSpace digit? strip)

namespace Version

/-- The text without a `v` or an equals sign in front. -/
def unmarked : List Char → List Char
  | c :: rest => if c = 'v' || c = '=' then rest else c :: rest
  | [] => []

/-- The value of decimal digits of any script. -/
def valueOf (digits : List Nat) : Nat := digits.foldl (fun value d => value * 10 + d) 0

/-- The digits that a text starts with. -/
def leadingDigits : List Char → List Nat
  | [] => []
  | c :: rest =>
    match digit? c with
    | some d => d :: leadingDigits rest
    | none => []

/-- The number that a version starts with, after white space and perhaps a mark. -/
def leading? (version : List Char) : Option Int :=
  match leadingDigits ((unmarked (version.dropWhile isSpace)).dropWhile isSpace) with
  | [] => none
  | digits => some (valueOf digits)

/-- The major version of a value. Nothing and truth values have none. -/
def major? : Primitive → Option Int
  | .null => none
  | .bool _ => none
  | value => leading? value.asText.toList

/-- The least major version of the description language that is understood. -/
def leastMajor : Int := 3

end Version

namespace OpenApi.Description

/-- The version of the description language that a description is written in. -/
def languageVersion (d : Description) : Except Failure String :=
  match d.openapi? with
  | some ⟨.text version, _⟩ =>
    match strip version.toList with
    | [] => .error (.load .noVersion)
    | trimmed => .ok (String.ofList trimmed)
  | _ => .error (.load .noVersion)

/-- Fails when the version of the description language is not understood. -/
def checkVersion (d : Description) : Except Failure Unit := do
  let version ← d.languageVersion
  match Version.leading? version.toList with
  | some major =>
    if Version.leastMajor ≤ major then return ()
    else .error (.load (.unsupportedVersion version))
  | none => .error (.load (.unsupportedVersion version))

end OpenApi.Description

end ServiceModel
