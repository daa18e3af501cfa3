import ProofPuzzles.Config.Reading
import ProofPuzzles.Config.Yaml.Document

/-!
# Configuration files

Where a configuration is looked for, and what its file has to hold.
-/

namespace ProofPuzzles.Config

/-- What stands at a path. -/
inductive PathEntry where
  | missing
  | directory
  | file (text : String)
  /-- The path, or a part of it, is longer than the file system admits. -/
  | tooLong

/-- The variable of the environment that names the configuration file. -/
def pathVariable : String := "WFF_GENERATOR_CONFIG"

/-- The configuration file if the environment names none. -/
def defaultPath : String := "config/generator.yaml"

/-- The parts of a path between slashes, without those that stay where they are. -/
def pathParts (path : String) : List String :=
  (path.splitOn "/").filter fun part => part ≠ "" ∧ part ≠ "."

/-- The path with single slashes and without parts that stay where they are. Two slashes at the
    start, but not more, are kept. -/
def normalizePath (path : String) : String :=
  let cs := path.toList
  let slashes := cs.takeWhile (· = '/')
  let root := match slashes.length with
    | 0 => ""
    | 2 => "//"
    | _ => "/"
  let joined := root ++ "/".intercalate (pathParts path)
  if joined = "" then "." else joined

/-- The greatest length of a path, in bytes. -/
def maxPathLength : Nat := 4095

/-- The greatest length of a part of a path, in bytes. -/
def maxPartLength : Nat := 255

/-- What stands at the parts of a path in a directory that holds files with the given paths, each
    in parts. -/
def entryAt (files : List (List String × String)) (parts : List String) : PathEntry :=
  match files.find? (·.1 = parts) with
  | some (_, text) => .file text
  | none =>
    if parts.isEmpty || files.any fun f => parts.isPrefixOf f.1 then .directory else .missing

/-- The directories that are found in the outermost one of all. -/
def rootDirectories : List String :=
  ["bin", "boot", "dev", "etc", "home", "lib", "mnt", "opt", "proc", "root", "run", "sbin", "srv",
    "sys", "tmp", "usr", "var"]

/-- What stands at a path from the outermost directory of all on: the usual directories, and a
    device that is always empty. Two points in the outermost directory lead nowhere else. -/
def entryOutside (parts : List String) : PathEntry :=
  match parts.dropWhile (· = "..") with
  | [] => .directory
  | ["dev", "null"] => .file ""
  | part :: more =>
    if maxPartLength < part.utf8ByteSize then .tooLong
    else if rootDirectories.contains part && more.isEmpty then .directory
    else .missing

/-- What stands at a path whose parts are followed one after the other from a place on. Two points
    lead back to the directory around a directory. -/
def follow (files : List (List String × String)) (place : List String) : List String → PathEntry
  | [] => entryAt files place
  | part :: parts =>
    match entryAt files place with
    | .directory =>
      if maxPartLength < part.utf8ByteSize then .tooLong
      else if part ≠ ".." then follow files (place ++ [part]) parts
      else if place.isEmpty then (if parts.all (· = "..") then .directory else .missing)
      else follow files place.dropLast parts
    | _ => .missing

/-- What stands at a path in a directory that holds files with the given relative paths. -/
def entryIn (files : List (String × String)) (path : String) : PathEntry :=
  if maxPathLength < (normalizePath path).utf8ByteSize then .tooLong
  else if path.toList.head? = some '/' then entryOutside (pathParts path)
  else follow (files.map fun f => (pathParts f.1, f.2)) [] (pathParts path)

/-- Whether an entry has the given key that has parts which complaints show. -/
def isShownEntry (key : Value) : Bool := key.sameKey (.text variablesName)

/-- The bounds that a file gives. An empty document gives the usual ones. -/
def boundsOfFile (path : String) : PathEntry → Except ConfigFault Bounds
  | .missing => .error (.reported (.fileNotFound (normalizePath path)))
  | .directory => .error (.directory (normalizePath path))
  | .tooLong => .error (.pathTooLong (normalizePath path))
  | .file text =>
    match Yaml.read isShownEntry text with
    | .error .malformed => .error (.reported (.unreadableFile (normalizePath path)))
    | .error e => .error (.document e)
    | .ok .null => readBounds (.mapping [])
    | .ok (.mapping entries) => readBounds (.mapping entries)
    | .ok _ => .error (.reported (.notAMapping (normalizePath path)))

/-- The bounds that a file gives, and the usual ones if there is no such file. -/
def boundsOrUsual (path : String) : PathEntry → Except ConfigFault Bounds
  | .missing => .ok .usual
  | entry => boundsOfFile path entry

end ProofPuzzles.Config
