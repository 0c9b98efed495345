import TypedMemory.Bytes
import TypedMemory.Text.Utf8

/-!
# Files

What goes wrong with a file, and a directory of files that is held in memory.  A path is followed
name by name; it can leave the directory, but of the rest of the file system only the standard
directories and the null device are known.
-/

namespace TypedMemory

inductive FileFault
  | notFound
  | notDirectory
  | isDirectory
  | nameTooLong
  | other (reason : String)
  deriving DecidableEq, Repr

def FileFault.message : FileFault → String
  | notFound => "No such file or directory (os error 2)"
  | notDirectory => "Not a directory (os error 20)"
  | isDirectory => "Is a directory (os error 21)"
  | nameTooLong => "File name too long (os error 36)"
  | other reason => reason

/-- A directory: the names and contents of its files, in the order of their creation. -/
abbrev Directory := List (String × Bytes)

/-- The directories that a path can lead through. -/
inductive Location
  /-- The directory that relative paths start from. -/
  | here
  /-- A directory that holds this one, nearer or further up. -/
  | above
  | root
  | devices
  /-- Another of the directories that every root has. -/
  | standard
  deriving DecidableEq, Repr

/-- The directories that every root has, besides that of the devices. -/
def standardNames : List String :=
  ["bin", "boot", "etc", "home", "lib", "media", "mnt", "opt", "proc", "root", "run", "sbin",
    "srv", "sys", "tmp", "usr", "var"]

def Location.parent : Location → Location
  | here | above => above
  | root | devices | standard => root

inductive Entry
  | directory (location : Location)
  | file (name : String)
  /-- The device that is always empty. -/
  | null
  /-- A name that is not in use. -/
  | missing (location : Location) (name : String)
  deriving DecidableEq, Repr

/-- A path that is followed from a location. -/
structure Path where
  start : Location
  names : List String
  /-- The path ends in a slash, so it can only lead to a directory. -/
  endsInSlash : Bool
  deriving DecidableEq, Repr

namespace Path

def nameLimit : Nat := 255

/-- One more than the greatest number of bytes of a path. -/
def lengthLimit : Nat := 4096

def ofText (text : String) : Except FileFault Path :=
  if Utf8.size text < lengthLimit then
    .ok {
      start := if text.startsWith "/" then .root else .here
      names := (text.splitOn "/").filter (· != "")
      endsInSlash := text.endsWith "/" }
  else .error .nameTooLong

end Path

namespace Directory

variable (d : Directory)

/-- What a name stands for in a location. -/
def child (location : Location) (name : String) : Except FileFault Entry :=
  if Path.nameLimit < Utf8.size name then .error .nameTooLong
  else
    match location, name with
    | .root, "dev" => .ok (.directory .devices)
    | .devices, "null" => .ok .null
    | .root, name =>
      .ok (if name ∈ standardNames then .directory .standard else .missing .root name)
    | .here, name => .ok (if (d.lookup name).isSome then .file name else .missing .here name)
    | location, name => .ok (.missing location name)

def enter (entry : Entry) (name : String) : Except FileFault Entry :=
  match entry with
  | .missing .. => .error .notFound
  | .file _ | .null => .error .notDirectory
  | .directory location =>
    match name with
    | "." => .ok (.directory location)
    | ".." => .ok (.directory location.parent)
    | name => d.child location name

def follow (start : Location) (names : List String) : Except FileFault Entry :=
  names.foldlM d.enter (.directory start)

def read (text : String) : Except FileFault Bytes := do
  let path ← Path.ofText text
  match ← d.follow path.start path.names with
  | .directory _ => .error .isDirectory
  | .missing .. => .error .notFound
  | .null => if path.endsInSlash then .error .notDirectory else .ok []
  | .file name =>
    if path.endsInSlash then .error .notDirectory else .ok ((d.lookup name).getD [])

def put (name : String) (contents : Bytes) : Directory :=
  if (d.lookup name).isSome then
    d.map fun file => if file.1 == name then (name, contents) else file
  else d ++ [(name, contents)]

/-- Creates the file at a path, or replaces its contents.  What is written outside the directory is
not kept. -/
def write (text : String) (contents : Bytes) : Except FileFault Directory := do
  let path ← Path.ofText text
  match path.names.getLast? with
  | none => .error .isDirectory
  | some last =>
    match ← d.follow path.start path.names.dropLast, last with
    | .directory _, "." | .directory _, ".." => .error .isDirectory
    | .directory location, last =>
      if path.endsInSlash then .error .isDirectory
      else
        match ← d.child location last with
        | .directory _ => .error .isDirectory
        | .file name | .missing .here name => .ok (d.put name contents)
        | .null | .missing .. => .ok d
    | .missing .., _ => .error .notFound
    | .file _, _ | .null, _ => .error .notDirectory

end Directory

end TypedMemory
