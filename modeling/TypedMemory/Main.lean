import TypedMemory.Command.Run

/-!
# The program

The command line over the files of the machine.
-/

namespace TypedMemory

def FileFault.ofSystem : IO.Error → FileFault
  | .noFileOrDirectory .. => .notFound
  | .inappropriateType .. => .isDirectory
  | e => .other (toString e)

def readFile (path : String) : IO (Except FileFault Bytes) := do
  try
    let contents ← IO.FS.readBinFile path
    return .ok contents.toList
  catch e => return .error (.ofSystem e)

def writeFile (path text : String) : IO (Except FileFault Unit) := do
  try
    IO.FS.writeFile path text
    return .ok ()
  catch e => return .error (.ofSystem e)

def Command.sources : Command → List String
  | types => []
  | layout _ choice _ | platform choice _ => choice.file.toList
  | read snapshot _ _ _ choice => snapshot :: choice.file.toList
  | hexdump snapshot .. => [snapshot]

/-- A short reminder of the command line. -/
def usageText : String :=
  "Usage: memlayout types | layout TYPE | read SNAPSHOT TYPE -a ADDRESS | " ++
    "hexdump SNAPSHOT -a ADDRESS | platform"

/-- Carries out a command on the files of the machine. -/
def Command.execute (command : Command) : IO UInt32 := do
  let files ← command.sources.mapM fun path => do return (path, ← readFile path)
  let outcome := command.run fun path => (files.lookup path).getD (.error .notFound)
  IO.print outcome.output
  let failure ←
    match outcome.failure, outcome.save with
    | some failure, _ => pure (some failure)
    | none, none => pure none
    | none, some (path, text) =>
      match ← writeFile path text with
      | .ok () => pure none
      | .error fault => pure (some (Command.saveFailure path fault))
  match failure with
  | none => return 0
  | some failure =>
    IO.eprintln failure.text
    return failureCode.toUInt32

end TypedMemory

def main (args : List String) : IO UInt32 := do
  match TypedMemory.Command.parse args with
  | .ok command => command.execute
  | .error .help =>
    IO.println TypedMemory.usageText
    return 0
  | .error .usage =>
    IO.eprintln TypedMemory.usageText
    return TypedMemory.usageCode.toUInt32
