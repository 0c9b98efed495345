import TypedMemory.Json.Number
import TypedMemory.Json.Text

/-!
# Passing over JSON values

`Json.Reader.skipValue` takes a value that does not matter.  It has to be well-formed, but for the
pairing of surrogates and the range of numbers.
-/

namespace TypedMemory.Json.Reader

/-- Takes the colon behind the name of a member. -/
def colon : Reader Unit := do
  match ← next with
  | some ':' => skip
  | some _ => refuse .colonExpected
  | none => refuse .endInObject

mutual

def skipValue : (fuel : Nat) → Reader Unit
  | 0 => fail .endInValue
  | fuel + 1 => do
    match ← next with
    | none => fail .endInValue
    | some 'n' => do skip; word ['u', 'l', 'l']
    | some 't' => do skip; word ['r', 'u', 'e']
    | some 'f' => do skip; word ['a', 'l', 's', 'e']
    | some '"' => skipText
    | some '[' => do
      skip
      match ← next with
      | none => fail .endInArray
      | some ']' => skip
      | some _ => skipItems fuel
    | some '\x7b' => do
      skip
      match ← next with
      | none => fail .endInObject
      | some '\x7d' => skip
      | some _ => skipMembers fuel
    | some '-' => do skip; let _ ← numberText .invalidNumber
    | some c =>
      if isDigit c then do let _ ← numberText .invalidNumber
      else refuse .valueExpected

def skipItems : (fuel : Nat) → Reader Unit
  | 0 => fail .endInArray
  | fuel + 1 => do
    skipValue fuel
    match ← next with
    | none => fail .endInArray
    | some ',' => do skip; skipItems fuel
    | some ']' => skip
    | some _ => refuse .arrayEndExpected

def skipMembers : (fuel : Nat) → Reader Unit
  | 0 => fail .endInObject
  | fuel + 1 => do
    match ← next with
    | none => fail .endInObject
    | some '"' => do
      skipText
      colon
      skipValue fuel
      match ← next with
      | none => fail .endInObject
      | some ',' => do skip; skipMembers fuel
      | some '\x7d' => skip
      | some _ => refuse .objectEndExpected
    | some _ => refuse .memberExpected

end

/-- The number of steps that suffices to read what is left. -/
def enough : Reader Nat :=
  return 2 * (← get).rest.length + 2

end TypedMemory.Json.Reader
