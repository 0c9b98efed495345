/-!
# Numerals

Natural numbers written in a base up to sixteen.  `Numeral.parse` reads a numeral that has to stay
below a limit and says what is wrong with one that it refuses; `decimal`, `hexLower` and `hexUpper`
write them.
-/

namespace TypedMemory.Numeral

inductive Fault
  | empty
  | invalidDigit
  | tooLarge
  deriving DecidableEq, Repr

def Fault.message : Fault → String
  | empty => "cannot parse integer from empty string"
  | invalidDigit => "invalid digit found in string"
  | tooLarge => "number too large to fit in target type"

/-- The value of a digit below `base`; letters of either case stand for the digits from ten on. -/
def digit? (base : Nat) (c : Char) : Option Nat :=
  let value :=
    if '0' ≤ c ∧ c ≤ '9' then some (c.toNat - '0'.toNat)
    else if 'a' ≤ c ∧ c ≤ 'f' then some (c.toNat - 'a'.toNat + 10)
    else if 'A' ≤ c ∧ c ≤ 'F' then some (c.toNat - 'A'.toNat + 10)
    else none
  value.filter (· < base)

/-- Reads digits from the left onto `acc`.  At each digit, one that is none is reported before a
value that has become too large. -/
def parseDigits (base limit : Nat) : (acc : Nat) → List Char → Except Fault Nat
  | acc, [] => .ok acc
  | acc, c :: rest =>
    match digit? base c with
    | none => .error .invalidDigit
    | some d =>
      let next := acc * base + d
      if next < limit then parseDigits base limit next rest else .error .tooLarge

/-- Reads a numeral below `limit`: an optional plus sign and one or more digits. -/
def parse (base limit : Nat) : List Char → Except Fault Nat
  | [] => .error .empty
  | ['+'] => .error .invalidDigit
  | '+' :: digits => parseDigits base limit 0 digits
  | digits => parseDigits base limit 0 digits

/-- The digits of `n` in `base`, with lower-case letters. -/
def digits (base n : Nat) : List Char :=
  Nat.toDigits base n

def decimal (n : Nat) : String :=
  String.ofList (digits 10 n)

/-- A decimal number with its sign if it is negative. -/
def signedDecimal (n : Int) : String :=
  if n < 0 then "-" ++ decimal n.natAbs else decimal n.natAbs

def hexLower (n : Nat) : String :=
  String.ofList (digits 16 n)

def hexUpper (n : Nat) : String :=
  String.ofList ((digits 16 n).map Char.toUpper)

/-- `text` behind as many copies of `fill` as bring it to `width` characters. -/
def padLeft (fill : Char) (width : Nat) (text : String) : String :=
  String.ofList (List.replicate (width - text.length) fill) ++ text

/-- `text` and after it as many copies of `fill` as bring it to `width` characters. -/
def padRight (fill : Char) (width : Nat) (text : String) : String :=
  text ++ String.ofList (List.replicate (width - text.length) fill)

end TypedMemory.Numeral
