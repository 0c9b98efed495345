import TypedMemory.Numeral
import TypedMemory.Text.Hex

/-!
# Command lines

A command line names a command, and then its operands and options in any order.  An option has a
long name behind two hyphens, and may have a letter behind one; its value is the next argument, or
is attached to the name by an equals sign or to the letter directly.  After a lone `--` there are
operands only.

`Command.parse` reads the arguments of the program.  An argument is judged when it is reached, so
what stops the reading is what comes first.
-/

namespace TypedMemory

/-- The choice of a platform: by name, by a file, or neither. -/
structure PlatformChoice where
  name : Option String := none
  file : Option String := none
  deriving DecidableEq, Repr

inductive Command
  | types
  | layout (type : String) (platform : PlatformChoice) (json : Bool)
  | read (snapshot type : String) (address base : Address) (platform : PlatformChoice)
  | hexdump (snapshot : String) (address : Address) (size : Nat) (base : Address) (ascii : Bool)
  /-- Describe a platform, and save it. -/
  | platform (choice : PlatformChoice) (save : Option String)
  deriving DecidableEq, Repr

/-- Why there is no command to run. -/
inductive Stop
  | help
  | usage
  deriving DecidableEq, Repr

namespace Command

structure OptionSpec where
  name : String
  letter : Option Char := none
  /-- What its value may be; nothing for an option without a value. -/
  accepts : Option (String → Bool)

/-- What a command takes. -/
structure Spec where
  /-- What each operand may be. -/
  operands : List (String → Bool)
  options : List OptionSpec

def isText (_ : String) : Bool := true

def isPath (text : String) : Bool := text != ""

def isAddress (text : String) : Bool :=
  match Hex.toAddress text with
  | .ok _ => true
  | .error _ => false

def count? (text : String) : Option Nat :=
  (Numeral.parse 10 wordLimit text.toList).toOption

def isCount (text : String) : Bool :=
  (count? text).isSome

structure Arguments where
  operands : List String := []
  /-- The options that were given, each with its value. -/
  options : List (String × String) := []

namespace Arguments

def addOperand (spec : Spec) (args : Arguments) (text : String) : Except Stop Arguments :=
  match spec.operands[args.operands.length]? with
  | some accepts =>
    if accepts text then .ok { args with operands := args.operands ++ [text] } else .error .usage
  | none => .error .usage

/-- Adds an option, which may not have been given before. -/
def addOption (args : Arguments) (option : OptionSpec) (value : String) : Except Stop Arguments :=
  if (args.options.lookup option.name).isSome then .error .usage
  else
    let accepted :=
      match option.accepts with
      | some accepts => accepts value
      | none => true
    if accepted then .ok { args with options := args.options ++ [(option.name, value)] }
    else .error .usage

end Arguments

/-- Whether an argument can be the value of the option before it. -/
def isValue (text : String) : Bool :=
  !text.startsWith "-" || text == "-"

/-- The option at the start of an argument, and the value that is attached to it.  The argument is
given without its first hyphen. -/
def splitOption (spec : Spec) : List Char → Except Stop (OptionSpec × Option String)
  | '-' :: cs =>
    let name := String.ofList (cs.takeWhile (· != '='))
    let attached := (Text.dropPrefix? ['='] (cs.dropWhile (· != '='))).map String.ofList
    match spec.options.find? (·.name == name) with
    | some option => .ok (option, attached)
    | none => .error (if name == "help" && attached.isNone then .help else .usage)
  | c :: cs =>
    let attached :=
      if cs.isEmpty then none
      else some (String.ofList ((Text.dropPrefix? ['='] cs).getD cs))
    match spec.options.find? (·.letter == some c) with
    | some option => .ok (option, attached)
    | none => .error (if c == 'h' then .help else .usage)
  | [] => .error .usage

def scan (spec : Spec) : Arguments → List String → Except Stop Arguments
  | args, [] => .ok args
  | args, text :: rest =>
    match text.toList with
    | ['-', '-'] => rest.foldlM (Arguments.addOperand spec) args
    | '-' :: c :: cs => do
      let (option, attached) ← splitOption spec (c :: cs)
      match option.accepts.isSome, attached with
      | false, none => do scan spec (← args.addOption option "") rest
      | false, some _ => .error .usage
      | true, some value => do scan spec (← args.addOption option value) rest
      | true, none =>
        match rest with
        | [] => .error .usage
        | value :: rest =>
          if isValue value then do scan spec (← args.addOption option value) rest
          else .error .usage
    | _ => do scan spec (← args.addOperand spec text) rest

/-! ## The commands -/

def platformOptions : List OptionSpec :=
  [⟨"platform", some 'p', some isText⟩, ⟨"platform-file", none, some isPath⟩]

def addressOption : OptionSpec := ⟨"address", some 'a', some isAddress⟩

def baseOption : OptionSpec := ⟨"base", some 'b', some isAddress⟩

def spec? : String → Option Spec
  | "types" => some ⟨[], []⟩
  | "layout" => some ⟨[isText], ⟨"json", none, none⟩ :: platformOptions⟩
  | "read" => some ⟨[isPath, isText], addressOption :: baseOption :: platformOptions⟩
  | "hexdump" =>
    some ⟨[isPath], [addressOption, baseOption, ⟨"size", some 's', some isCount⟩,
      ⟨"ascii", none, none⟩]⟩
  | "platform" => some ⟨[], ⟨"save", none, some isPath⟩ :: platformOptions⟩
  | _ => none

/-- The number of bytes that are shown if no other is asked for. -/
def defaultCount : Nat := 256

namespace Arguments

variable (args : Arguments)

def option? (name : String) : Option String :=
  args.options.lookup name

def has (name : String) : Bool :=
  (args.option? name).isSome

def address? (name : String) : Option Address :=
  (args.option? name).bind fun text => (Hex.toAddress text).toOption

/-- The choice of a platform, which is made in one way only. -/
def platformChoice : Except Stop PlatformChoice :=
  if args.has "platform" && args.has "platform-file" then .error .usage
  else .ok ⟨args.option? "platform", args.option? "platform-file"⟩

/-- The command of a name with these arguments. -/
def command (name : String) : Except Stop Command := do
  let choice ← args.platformChoice
  match name, args.operands, args.address? "address" with
  | "types", [], _ => return types
  | "layout", [type], _ => return layout type choice (args.has "json")
  | "read", [snapshot, type], some address =>
    return read snapshot type address ((args.address? "base").getD 0) choice
  | "hexdump", [snapshot], some address =>
    let size := ((args.option? "size").bind count?).getD defaultCount
    return hexdump snapshot address size ((args.address? "base").getD 0) (args.has "ascii")
  | "platform", [], _ => return platform choice (args.option? "save")
  | _, _, _ => .error .usage

end Arguments

def parse : List String → Except Stop Command
  | [] => .error .usage
  | "help" :: topics =>
    match topics with
    | [] => .error .help
    | [topic] => .error (if topic == "help" || (spec? topic).isSome then .help else .usage)
    | _ => .error .usage
  | name :: rest =>
    if name.startsWith "-h" || name == "--help" then .error .help
    else
      match spec? name with
      | some spec => do (← scan spec {} rest).command name
      | none => .error .usage

end Command

end TypedMemory
