import TypedMemory.Json.Number
import TypedMemory.Json.Skip
import TypedMemory.Json.Text
import TypedMemory.Text.Quoted

/-!
# Reading JSON values

Readers for values of a given form.

* `natural`: a natural number below a limit.
* `nameOf`: one of several names.
* `nextMember`, `nextItem`, `enclosed`: the members of an object and the items of an array.
-/

namespace TypedMemory.Json.Reader

variable {α : Type}

/-- How numbers that are no integers are shown. -/
def Number.style : FloatFormat.FractionStyle := ⟨.even, -5, true⟩

def Number.describe : Number → String
  | integer n => "integer `" ++ Numeral.signedDecimal n ++ "`"
  | real pattern =>
    "floating point `" ++ FloatFormat.binary64.fractionText Number.style pattern ++ "`"

/-- Fails because the next value is not what is expected. -/
def unexpected (expected : String) : Reader α :=
  placed do
    match ← peek with
    | some 'n' => do skip; word ['u', 'l', 'l']; reject (.otherKind "null" expected)
    | some 't' => do skip; word ['r', 'u', 'e']; reject (.otherKind "boolean `true`" expected)
    | some 'f' => do
      skip
      word ['a', 'l', 's', 'e']
      reject (.otherKind "boolean `false`" expected)
    | some '"' => do
      let found ← text
      reject (.otherKind ("string " ++ Text.quoted found) expected)
    | some '[' => reject (.otherKind "sequence" expected)
    | some '\x7b' => reject (.otherKind "map" expected)
    | some '-' => do
      skip
      let found ← number true
      reject (.otherKind found.describe expected)
    | some c =>
      if isDigit c then do
        let found ← number false
        reject (.otherKind found.describe expected)
      else refuse .valueExpected
    | none => refuse .valueExpected

def natural (limit : Nat) (expected : String) : Reader Nat :=
  placed do
    match ← next with
    | none => fail .endInValue
    | some c =>
      if c = '-' ∨ isDigit c then
        if c = '-' then skip
        match ← number (c == '-') with
        | .integer n =>
          if 0 ≤ n ∧ n < limit then return n.toNat
          else reject (.otherValue (Number.integer n).describe expected)
        | found => reject (.otherKind found.describe expected)
      else unexpected expected

def unit : Reader Unit :=
  placed do
    match ← next with
    | none => fail .endInValue
    | some 'n' => do skip; word ['u', 'l', 'l']
    | some _ => unexpected "unit"

/-- Takes a text that is the name of one of `all`. -/
def knownName (all : List α) (name : α → String) : Reader α :=
  placed do
    match ← next with
    | none => fail .endInValue
    | some '"' => do
      let found ← text
      match all.find? fun a => name a == found with
      | some a => return a
      | none => reject (.unknownName found (all.map name))
    | some _ => unexpected "variant identifier"

/-- Takes the name of one of `all`: a text, or an object with that name and null. -/
def nameOf (all : List α) (name : α → String) : Reader α := do
  match ← next with
  | none => fail .endInValue
  | some '"' => knownName all name
  | some '\x7b' => do
    skip
    let a ←
      match ← next with
      | some '"' => knownName all name
      | some '\x7d' => refuse .valueExpected
      | some _ => refuse .memberExpected
      | none => fail .endInObject
    colon
    unit
    match ← next with
    | some '\x7d' => do skip; return a
    | some _ => fail .valueExpected
    | none => fail .endInObject
  | some _ => refuse .valueExpected

/-! ## Objects and arrays -/

/-- Takes what stands between two items, and the name of the next member of an object; nothing at
the end of it. -/
def nextMember (first : Bool) : Reader (Option String) := do
  match ← next with
  | none => fail .endInObject
  | some '\x7d' => return none
  | some c =>
    if first then
      if c = '"' then some <$> text else refuse .memberExpected
    else if c = ',' then
      skip
      match ← next with
      | some '"' => some <$> text
      | some '\x7d' => refuse .trailingComma
      | some _ => refuse .memberExpected
      | none => fail .endInValue
    else refuse .objectEndExpected

/-- Takes what stands between two items, and says whether an array has another one. -/
def nextItem (first : Bool) : Reader Bool := do
  match ← next with
  | none => fail .endInArray
  | some ']' => return false
  | some c =>
    if first then return true
    else if c = ',' then
      skip
      match ← next with
      | some ']' => refuse .trailingComma
      | some _ => return true
      | none => fail .endInValue
    else refuse .arrayEndExpected

def endObject : Reader Unit := do
  match ← next with
  | some '\x7d' => skip
  | some ',' => refuse .trailingComma
  | some _ => refuse .trailingCharacters
  | none => fail .endInObject

def endArray : Reader Unit := do
  match ← next with
  | some ']' => skip
  | some ',' => do
    skip
    if (← next) = some ']' then refuse .trailingComma else refuse .trailingCharacters
  | some _ => refuse .trailingCharacters
  | none => fail .endInArray

/-- Takes the opening character of an object or array, its content and its end.  The end is looked
for also when the content fails, and then the fault of the content counts. -/
def enclosed (content : Reader α) (ending : Reader Unit) : Reader α := do
  skip
  let result ← attempt content
  let closed ← attempt ending
  match result, closed with
  | .ok a, .ok () => return a
  | .error fault, _ => throw fault
  | .ok _, .error fault => throw fault

end TypedMemory.Json.Reader
