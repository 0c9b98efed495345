import TypedMemory.Json.Reader
import TypedMemory.Json.Scaling
import TypedMemory.Rounding

/-!
# Reading JSON numbers

`Json.Reader.number` gives an integer where one of 64 bits is written, and a double precision number
otherwise.  The latter need not be the nearest one: its digits are first made an integer of 64 bits,
which leaves out those that do not fit, and then scaled by a power of ten.
-/

namespace TypedMemory.Json.Reader

def isDigit (c : Char) : Bool :=
  '0' ≤ c && c ≤ '9'

def append (n : Nat) (c : Char) : Nat :=
  10 * n + (c.toNat - '0'.toNat)

/-- Appends digits for as long as the number stays below `limit`.  Gives the number and the digits
that are left. -/
def appendBelow (limit : Nat) : (n : Nat) → List Char → Nat × List Char
  | n, [] => (n, [])
  | n, c :: rest =>
    if append n c < limit then appendBelow limit (append n c) rest else (n, c :: rest)

/-- Takes one or more digits.  A document that ends before them has the fault `atEnd`. -/
def digits (atEnd : Cause) : Reader (List Char) := do
  match ← peek with
  | none => fail atEnd
  | some c => if isDigit c then takeWhile isDigit else refuse .invalidNumber

/-- Takes the whole part of a number, which has no zero before other digits. -/
def whole (atEnd : Cause) : Reader (List Char) := do
  if (← peek) = some '0' then
    skip
    if ((← peek).map isDigit).getD false then refuse .invalidNumber
    return ['0']
  else digits atEnd

/-- The exponent of a number as it is written. -/
structure ExponentText where
  negative : Bool := false
  digits : List Char := []
  /-- The place before the digits. -/
  place : Place := {}

def exponent (atEnd : Cause) : Reader ExponentText := do
  let sign ← peek
  if sign = some '+' ∨ sign = some '-' then skip
  let place := (← get).place
  return ⟨sign == some '-', ← digits atEnd, place⟩

/-- A number as it is written, without its sign. -/
structure NumberText where
  whole : List Char
  fraction : List Char := []
  exponent : Option ExponentText := none

def numberText (atEnd : Cause) : Reader NumberText := do
  let whole ← whole atEnd
  let fraction ← if (← peek) = some '.' then do skip; digits atEnd else pure []
  let mark ← peek
  if mark = some 'e' ∨ mark = some 'E' then
    skip
    return ⟨whole, fraction, some (← exponent atEnd)⟩
  else return ⟨whole, fraction, none⟩

/-- A number: an integer of 64 bits, or a double precision number. -/
inductive Number
  | integer (n : Int)
  | real (pattern : Nat)

/-- One more than the greatest exponent that is taken as it is written. -/
def exponentLimit : Nat := 0x80000000

/-- The digits as a word, and the power of ten that it is to be multiplied by.  A digit that does
not fit is left out with those behind it, in the whole part and in the fraction by itself. -/
def NumberText.significand (n : NumberText) : Nat × Int :=
  let (word, wholeRest) := appendBelow wordLimit 0 n.whole
  let (word, fractionRest) := appendBelow wordLimit word n.fraction
  (word, (wholeRest.length : Int) - (n.fraction.length - fractionRest.length : Nat))

/-- The integer that is written, where it is one of 64 bits.  A negative zero is no integer. -/
def NumberText.integer? (negative : Bool) (n : NumberText) : Option Int :=
  let (word, rest) := appendBelow wordLimit 0 n.whole
  if !rest.isEmpty || !n.fraction.isEmpty || n.exponent.isSome then none
  else if !negative then some word
  else if 0 < word ∧ word ≤ offsetLimit then some (-word)
  else none

/-- The double precision number for digits and a power of ten.  One without a number near it has a
fault at `place`. -/
def real (negative : Bool) (word : Nat) (power : Int) (place : Place) : Reader Number :=
  match Scaling.scaled? (FloatFormat.binary64.round false word 0) power with
  | some pattern => return .real (FloatFormat.binary64.withSign negative pattern)
  | none => throw ⟨.numberTooLarge, some place⟩

/-- Takes a number without its sign, which is given.  Of an exponent beyond all bounds only the
digits up to the bound are read, unless the number is zero with it. -/
def number (negative : Bool) : Reader Number := do
  let n ← numberText .endInValue
  match n.integer? negative with
  | some integer => return .integer integer
  | none =>
    let (word, power) := n.significand
    let place := (← get).place
    match n.exponent with
    | none => real negative word power place
    | some e =>
      let (magnitude, rest) := appendBelow exponentLimit 0 e.digits
      match rest with
      | [] => real negative word (if e.negative then power - magnitude else power + magnitude) place
      | _ :: rest =>
        if word = 0 ∨ e.negative then return .real (FloatFormat.binary64.withSign negative 0)
        else
          let read := e.digits.length - rest.length
          throw ⟨.numberTooLarge, some { e.place with column := e.place.column + read }⟩

end TypedMemory.Json.Reader
