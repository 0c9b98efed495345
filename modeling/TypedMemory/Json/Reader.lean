import TypedMemory.Json.Fault

/-!
# JSON readers

A `Json.Reader` takes characters from the front of a document and stops at the first fault, so of
several faults the first in the document counts.  Documents are read by the letter of the format: no
comments, no trailing commas, and no other blanks than spaces, tabs and line ends.

`Json.read` applies a reader to a whole document.
-/

namespace TypedMemory.Json

/-- What is left of a document, and where it begins. -/
structure Input where
  rest : List Char
  place : Place := {}

/-- A computation that takes characters from a document.  What it has taken before it fails stays
taken. -/
abbrev Reader := ExceptT Fault (StateM Input)

namespace Reader

variable {α : Type}

def peek : Reader (Option Char) :=
  return (← get).rest.head?

def skip : Reader Unit :=
  modify fun input =>
    match input.rest with
    | [] => input
    | c :: rest => ⟨rest, input.place.after c⟩

/-- Takes the characters that satisfy `p`, up to the first that does not. -/
def takeWhile (p : Char → Bool) : Reader (List Char) := do
  let input ← get
  let run := input.rest.takeWhile p
  set (Input.mk (input.rest.dropWhile p) (run.foldl Place.after input.place))
  return run

def isBlank (c : Char) : Bool :=
  c == ' ' || c == '\t' || c == '\n' || c == '\r'

/-- Takes blanks, and gives the character behind them. -/
def next : Reader (Option Char) := do
  let _ ← takeWhile isBlank
  peek

/-- Fails behind what has been taken. -/
def fail (cause : Cause) : Reader α := do
  throw ⟨cause, some (← get).place⟩

/-- Fails at the next character, which can not be taken. -/
def refuse (cause : Cause) : Reader α := do
  let input ← get
  match input.rest with
  | [] => fail cause
  | c :: _ => throw ⟨cause, some (input.place.into c)⟩

/-- Fails because of what a value means. -/
def reject (cause : Cause) : Reader α :=
  throw ⟨cause, none⟩

/-- Gives a fault without a place the place where `reader` stops. -/
def placed (reader : Reader α) : Reader α :=
  tryCatch reader fun fault => do
    throw { fault with place := fault.place <|> some (← get).place }

/-- Runs a reader and keeps its fault as a result. -/
def attempt (reader : Reader α) : Reader (Except Fault α) :=
  tryCatch (Except.ok <$> reader) fun fault => pure (.error fault)

def word : List Char → Reader Unit
  | [] => return ()
  | c :: rest => do
    match ← peek with
    | none => fail .endInValue
    | some d => if d = c then do skip; word rest else refuse .wordExpected

end Reader

def read {α : Type} (reader : Reader α) (document : String) : Except Fault α :=
  let all : Reader α := do
    let a ← reader
    match ← Reader.next with
    | none => return a
    | some _ => Reader.refuse .trailingCharacters
  (all.run { rest := document.toList }).1

end TypedMemory.Json