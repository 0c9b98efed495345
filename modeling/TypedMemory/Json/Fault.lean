import TypedMemory.Numeral

/-!
# Faults of JSON documents

What can be wrong with a document that is read, and where.  A fault in the spelling of a document
has a place of its own.  One in the meaning of a value has none: it gets the place where the reading
of that value stops.
-/

namespace TypedMemory.Json

structure Place where
  line : Nat := 1
  /-- The number of bytes before it in its line. -/
  column : Nat := 0
  deriving DecidableEq, Repr

namespace Place

def after (p : Place) (c : Char) : Place :=
  if c = '\n' then ⟨p.line + 1, 0⟩ else ⟨p.line, p.column + c.utf8Size⟩

/-- The place behind the first byte of a character. -/
def into (p : Place) (c : Char) : Place :=
  if c = '\n' then ⟨p.line + 1, 0⟩ else ⟨p.line, p.column + 1⟩

/-- The place `count` bytes further in a text, which may be within a character. -/
def ahead (p : Place) : (count : Nat) → List Char → Place
  | 0, _ => p
  | _, [] => p
  | count, c :: rest =>
    if c.utf8Size ≤ count then (p.after c).ahead (count - c.utf8Size) rest
    else ⟨p.line, p.column + count⟩

end Place

inductive Cause
  /-- The document ends where a value is due, or within an array, an object or a text. -/
  | endInValue | endInArray | endInObject | endInText
  | colonExpected | arrayEndExpected | objectEndExpected | wordExpected | valueExpected
  | memberExpected
  | controlCharacter | invalidEscape
  /-- One half of a surrogate pair where it can not be. -/
  | loneSurrogate
  /-- The second half of a surrogate pair is missing. -/
  | openPair
  | invalidNumber | numberTooLarge
  | trailingComma | trailingCharacters
  /-- A value of another kind than expected. -/
  | otherKind (found expected : String)
  /-- A value of the right kind that is none of those expected. -/
  | otherValue (found expected : String)
  /-- An array with too few items. -/
  | tooShort (length : Nat) (expected : String)
  | unknownName (name : String) (known : List String)
  | missingMember (name : String)
  | repeatedMember (name : String)
  /-- What the value stands for is not accepted. -/
  | refused (reason : String)
  deriving DecidableEq, Repr

def Cause.message : Cause → String
  | endInValue => "EOF while parsing a value"
  | endInArray => "EOF while parsing a list"
  | endInObject => "EOF while parsing an object"
  | endInText => "EOF while parsing a string"
  | colonExpected => "expected `:`"
  | arrayEndExpected => "expected `,` or `]`"
  | objectEndExpected => "expected `,` or `\x7d`"
  | wordExpected => "expected ident"
  | valueExpected => "expected value"
  | memberExpected => "key must be a string"
  | controlCharacter =>
    "control character (\\u0000-\\u001F) found while parsing a string"
  | invalidEscape => "invalid escape"
  | loneSurrogate => "lone leading surrogate in hex escape"
  | openPair => "unexpected end of hex escape"
  | invalidNumber => "invalid number"
  | numberTooLarge => "number out of range"
  | trailingComma => "trailing comma"
  | trailingCharacters => "trailing characters"
  | otherKind found expected => s!"invalid type: {found}, expected {expected}"
  | otherValue found expected => s!"invalid value: {found}, expected {expected}"
  | tooShort length expected =>
    "invalid length " ++ Numeral.decimal length ++ ", expected " ++ expected
  | unknownName name known =>
    s!"unknown variant `{name}`, expected one of " ++
      ", ".intercalate (known.map fun other => s!"`{other}`")
  | missingMember name => s!"missing field `{name}`"
  | repeatedMember name => s!"duplicate field `{name}`"
  | refused reason => reason

/-- A cause, and the place where it was found. -/
structure Fault where
  cause : Cause
  place : Option Place
  deriving DecidableEq, Repr

def Fault.message (f : Fault) : String :=
  match f.place with
  | none => f.cause.message
  | some p =>
    f.cause.message ++ " at line " ++ Numeral.decimal p.line ++ " column " ++
      Numeral.decimal p.column

end TypedMemory.Json
