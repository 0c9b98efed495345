import TypedMemory.Json.Reader
import TypedMemory.Numeral

/-!
# Reading JSON texts

`Json.Reader.text` gives the characters that a quoted text stands for, and `skipText` passes over
one.
-/

namespace TypedMemory.Json.Reader

def codeLength : Nat := 4

/-- Takes a code of four hexadecimal digits.  Other bytes in their place are judged all four at
once. -/
def code : Reader Nat := do
  let input ← get
  let digits := input.rest.take codeLength
  set (Input.mk (input.rest.drop codeLength) (input.place.ahead codeLength input.rest))
  if digits.foldl (fun size c => size + c.utf8Size) 0 < codeLength then fail .endInText
  else
    match digits.mapM (Numeral.digit? 16) with
    | some values => return values.foldl (fun n value => 16 * n + value) 0
    | none => fail .invalidEscape

/-- Takes a character that continues a surrogate pair. -/
def continuePair (c : Char) : Reader Unit := do
  match ← peek with
  | none => fail .endInText
  | some d => if d = c then skip else refuse .openPair

def isHighSurrogate (unit : Nat) : Bool := 0xd800 ≤ unit && unit < 0xdc00

def isLowSurrogate (unit : Nat) : Bool := 0xdc00 ≤ unit && unit < 0xe000

/-- The character of a code, or of two that form a surrogate pair. -/
def codePoint : Reader Char := do
  let unit ← code
  if isLowSurrogate unit then fail .loneSurrogate
  else if isHighSurrogate unit then do
    continuePair '\\'
    continuePair 'u'
    let low ← code
    if isLowSurrogate low then
      return Char.ofNat (0x10000 + (unit - 0xd800) * 1024 + (low - 0xdc00))
    else fail .loneSurrogate
  else return Char.ofNat unit

/-- The character that a letter behind a backslash stands for. -/
def escaped? : Char → Option Char
  | '"' => some '"'
  | '\\' => some '\\'
  | '/' => some '/'
  | 'b' => some '\x08'
  | 'f' => some '\x0c'
  | 'n' => some '\n'
  | 'r' => some '\r'
  | 't' => some '\t'
  | _ => none

/-- The character that is meant behind a backslash, where `codes` reads a code. -/
def escape (codes : Reader Char) : Reader Char := do
  match ← peek with
  | none => fail .endInText
  | some 'u' => do skip; codes
  | some c =>
    match escaped? c with
    | some meant => do skip; return meant
    | none => refuse .invalidEscape

def textFrom : (fuel : Nat) → Reader (List Char)
  | 0 => fail .endInText
  | fuel + 1 => do
    match ← peek with
    | none => fail .endInText
    | some '"' => do skip; return []
    | some '\\' => do
      skip
      let c ← escape codePoint
      return c :: (← textFrom fuel)
    | some c =>
      if c.toNat < 0x20 then refuse .controlCharacter
      else do skip; return c :: (← textFrom fuel)

def text : Reader String := do
  skip
  let input ← get
  return String.ofList (← textFrom (input.rest.length + 1))

/-- Takes the rest of a text that does not matter, in which surrogates need no partner. -/
def skipTextFrom : (fuel : Nat) → Reader Unit
  | 0 => fail .endInText
  | fuel + 1 => do
    match ← peek with
    | none => fail .endInText
    | some '"' => skip
    | some '\\' => do
      skip
      let _ ← escape (Char.ofNat <$> code)
      skipTextFrom fuel
    | some c =>
      if c.toNat < 0x20 then fail .controlCharacter
      else do skip; skipTextFrom fuel

/-- Takes a text that does not matter, from its opening quote on. -/
def skipText : Reader Unit := do
  skip
  let input ← get
  skipTextFrom (input.rest.length + 1)

end TypedMemory.Json.Reader
