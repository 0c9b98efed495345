import TypedMemory.Buffer
import TypedMemory.Command.Arguments
import TypedMemory.Command.Display
import TypedMemory.Command.Failure
import TypedMemory.Files
import TypedMemory.Hexdump
import TypedMemory.Listing
import TypedMemory.Saved

/-!
# Running commands

`Command.run` carries out a command, given the contents of files.  Its `Outcome` is what is printed,
what is to be saved, and the failure that ends the command.

`runIn` runs the program in a directory that is held in memory.
-/

namespace TypedMemory

structure Outcome where
  output : String := ""
  /-- A path and the text to save there, after printing. -/
  save : Option (String × String) := none
  failure : Option Failure := none
  deriving DecidableEq, Repr

namespace Command

/-- The outcome of what may fail before anything is printed. -/
def outcome : Except Failure String → Outcome
  | .ok output => { output }
  | .error failure => { failure := some failure }

def typeNamed (name : String) : Except Failure Builtin :=
  match Builtin.ofName? name with
  | some type => .ok type
  | none => .error ⟨s!"Unknown type '{name}' (run `memlayout types` for the list)", []⟩

def builtinLayout (p : Platform) (type : Builtin) : Except Failure Layout :=
  (Schema.empty.layout p (.builtin type)).mapError Failure.ofError

def report (type : String) (p : Platform) : Except Failure Report := do
  let type ← typeNamed type
  let layout ← builtinLayout p type
  return layout.report .empty

variable (read : String → Except FileFault Bytes)

/-- The contents of a file, or the error that it gives. -/
def contents (path : String) : Except Error Bytes :=
  (read path).mapError fun fault => .io fault.message

/-- The platform of a choice, which is the host by default. -/
def choosePlatform (choice : PlatformChoice) : Except Failure Platform :=
  match choice.file, choice.name with
  | some path, _ =>
    (contents read path >>= Platform.load).mapError
      (Failure.within ("Failed to load platform from " ++ path))
  | none, some name => (Platform.parse name).mapError Failure.ofError
  | none, none => .ok .host

/-- The buffer of a snapshot whose first byte was at `base`. -/
def loadSnapshot (path : String) (base : Address) : Except Failure Buffer :=
  ((contents read path).map fun bytes => ⟨base, bytes, []⟩).mapError
    (Failure.within ("Failed to load snapshot " ++ path))

/-- The space of a buffer that holds the predefined types. -/
def builtinSpace (p : Platform) : Space Buffer :=
  { Buffer.port p with schema := .empty }

def showTypes : Except Failure String := do
  let p := Platform.host
  let lines ← Builtin.all.mapM fun type => do
    let layout ← builtinLayout p type
    return "  " ++ bold (Numeral.padRight ' ' 20 type.name) ++ " " ++
      Numeral.padRight ' ' 6 type.kind.name ++ " " ++
      Numeral.padLeft ' ' 5 (Numeral.decimal layout.size) ++ " bytes"
  return printed (("Predefined types (" ++ p.text ++ "):") :: lines)

def showLayout (type : String) (p : Platform) (json : Bool) : Except Failure String := do
  let r ← report type p
  return if json then printed [r.document.pretty] else printed r.lines

def showInstance (snapshot type : String) (address base : Address) (p : Platform) :
    Except Failure String := do
  let type ← typeNamed type
  let buffer ← loadSnapshot read snapshot base
  let layout ← builtinLayout p type
  let view : CompositeView := ⟨address, layout, .native⟩
  let (lines, _) := (view.listing (builtinSpace p)).run buffer
  let lines ← lines.mapError Failure.ofError
  let heading := bold layout.name ++ " @ " ++ Hex.address address ++ " (" ++
    Numeral.decimal layout.size ++ " bytes, " ++ p.text ++ ")"
  return printed (heading :: lines)

def showBytes (snapshot : String) (address : Address) (size : Nat) (base : Address)
    (ascii : Bool) : Except Failure String := do
  let buffer ← loadSnapshot read snapshot base
  let last := base.toNat + buffer.memory.length
  if address < base ∨ last ≤ address.toNat then
    .error ⟨"Address " ++ Hex.address address ++ " is outside the snapshot (" ++
      Hex.address base ++ "..0x" ++ Numeral.hexUpper last ++ ")", []⟩
  else
    let size := min size (last - address.toNat)
    let (bytes, _) := (Buffer.readBytes address size).run buffer
    let bytes ← bytes.mapError Failure.ofError
    let heading := bold ("Hexdump at " ++ Hex.address address ++ " (" ++ Numeral.decimal size ++
      " bytes):")
    return printed (heading :: "" :: Hexdump.lines bytes ascii)

def run : Command → Outcome
  | types => outcome showTypes
  | layout type choice json =>
    outcome (choosePlatform read choice >>= fun p => showLayout type p json)
  | .read snapshot type address base choice =>
    outcome (choosePlatform read choice >>= fun p =>
      showInstance read snapshot type address base p)
  | hexdump snapshot address size base ascii =>
    outcome (showBytes read snapshot address size base ascii)
  | platform choice save =>
    match choosePlatform read choice with
    | .error failure => { failure := some failure }
    | .ok p => { output := printed p.lines, save := save.map fun path => (path, p.saved) }

def saveFailure (path : String) (fault : FileFault) : Failure :=
  .within ("Failed to save platform to " ++ path) (.io fault.message)

end Command

/-- What a run of the program leaves behind. -/
structure ProgramResult where
  exitCode : Nat
  output : String
  failure : Option Failure
  directory : Directory
  deriving DecidableEq, Repr

def failureCode : Nat := 1

/-- The exit code for a command line that is not understood. -/
def usageCode : Nat := 2

/-- Runs the program in a directory. -/
def runIn (d : Directory) (args : List String) : ProgramResult :=
  match Command.parse args with
  | .error .help => ⟨0, "", none, d⟩
  | .error .usage => ⟨usageCode, "", none, d⟩
  | .ok command =>
    let result := command.run d.read
    match result.failure, result.save with
    | some failure, _ => ⟨failureCode, result.output, some failure, d⟩
    | none, none => ⟨0, result.output, none, d⟩
    | none, some (path, text) =>
      match d.write path (Utf8.encode text) with
      | .ok d => ⟨0, result.output, none, d⟩
      | .error fault => ⟨failureCode, result.output, some (Command.saveFailure path fault), d⟩

end TypedMemory
