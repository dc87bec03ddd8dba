/-
The files that the program sees: a directory of files with their bytes. Paths are simplified
before they are used, and every way in which a file cannot be read or written has its message.
-/
import ServiceModel.Text.Quoted
import ServiceModel.Text.Split

namespace ServiceModel.CommandLine

open Text (quoted cut)

/-! ## Paths -/

/-- A path: the slashes in front, if it is absolute, and its parts. -/
structure Path where
  root : String
  parts : List String
  deriving DecidableEq, Repr

namespace Path

/-- The path that a text stands for. Empty parts and single dots say nothing; two slashes in front
are kept apart from one or many. -/
def ofText (text : String) : Path :=
  let chars := text.toList
  let slashes := (chars.takeWhile (· = '/')).length
  let parts := ((cut '/' chars).filter fun part => part ≠ [] && part ≠ ['.']).map String.ofList
  ⟨if slashes = 0 then "" else if slashes = 2 then "//" else "/", parts⟩

/-- The path as a text. -/
def text (p : Path) : String :=
  if p.root.isEmpty && p.parts.isEmpty then "." else p.root ++ String.intercalate "/" p.parts

/-- Does no part hold the zero character, with which every name ends for the system? -/
def isNameable (p : Path) : Bool := p.parts.all fun part => !part.toList.contains (Char.ofNat 0)

end Path

/-! ## Files -/

/-- Files under their paths. -/
abbrev Files := List (Path × List UInt8)

/-- Why a file cannot be read or written. -/
inductive FileError where
  | missing
  | notDirectory
  | isDirectory
  | nameTooLong
  deriving DecidableEq, Repr

namespace FileError

/-- The number and the wording that the system has for an error. -/
def reason : FileError → Nat × String
  | .missing => (2, "No such file or directory")
  | .notDirectory => (20, "Not a directory")
  | .isDirectory => (21, "Is a directory")
  | .nameTooLong => (36, "File name too long")

/-- What is wrong with the file at a path. -/
def message (path : Path) (e : FileError) : String :=
  "[Errno " ++ toString e.reason.1 ++ "] " ++ e.reason.2 ++ ": " ++ quoted path.text

/-- The error with a number of the system. -/
def ofNumber? (number : Nat) : Option FileError :=
  [missing, notDirectory, isDirectory, nameTooLong].find? (·.reason.1 == number)

end FileError

/-- What stands at a path. -/
inductive FileEntry where
  | file (bytes : List UInt8)
  | directory
  | nothing
  deriving Repr

namespace Files

/-- What stands at a path, the directory that holds all files among it. -/
def entry (files : Files) (p : Path) : FileEntry :=
  match files.lookup p with
  | some bytes => .file bytes
  | none =>
    if p.parts.all (· == "..") || files.any (fun f => p.parts.isPrefixOf f.1.parts) then .directory
    else .nothing

/-- How many bytes the name of a file may have. -/
def longestName : Nat := 255

/-- How many bytes a path may have. -/
def longestPath : Nat := 4095

/-- Fails unless all parts of a path but the last lead to directories, and no name before or
behind them is too long. -/
def checkParents (files : Files) (p : Path) : Except FileError Unit :=
  if longestPath < p.text.utf8ByteSize then .error .nameTooLong
  else
    (List.range p.parts.length).forM fun n =>
      match files.entry ⟨p.root, p.parts.take n⟩ with
      | .directory =>
        if (p.parts[n]?).any (longestName < ·.utf8ByteSize) then .error .nameTooLong else .ok ()
      | .file _ => .error .notDirectory
      | .nothing => .error .missing

/-- The bytes of a file. -/
def read (files : Files) (p : Path) : Except FileError (List UInt8) := do
  files.checkParents p
  match files.entry p with
  | .file bytes => return bytes
  | .directory => .error .isDirectory
  | .nothing => .error .missing

/-- The files with other bytes, or a new file, at a path. -/
def put (p : Path) (bytes : List UInt8) : Files → Files
  | [] => [(p, bytes)]
  | (q, old) :: rest => if q = p then (p, bytes) :: rest else (q, old) :: put p bytes rest

/-- The files after the bytes are written to a path. -/
def write (files : Files) (p : Path) (bytes : List UInt8) : Except FileError Files := do
  files.checkParents p
  match files.entry p with
  | .directory => .error .isDirectory
  | _ => return files.put p bytes

end Files

end ServiceModel.CommandLine
