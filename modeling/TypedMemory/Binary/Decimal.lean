import TypedMemory.Binary
import TypedMemory.Numeral

/-!
# Floating-point numbers in decimal

A finite number is written with the fewest decimal digits that are closer to it than to any other
number of its format, and of those with the nearest (`FloatFormat.shortest`).  There are two ways to
lay the digits out: `plainText` is always positional, `fractionText` marks the number as a fraction
and takes an exponent when the number is very large or very small.
-/

namespace TypedMemory

def powerOfTen (n : Nat) : Nat :=
  Nat.pow 10 n

/-- The number `digits * 10 ^ exponent`. -/
structure Decimal where
  digits : Nat
  exponent : Int
  deriving DecidableEq, Repr

/-- Which of two equally near decimals is taken. -/
inductive TieBreak
  | upper
  /-- The one whose last digit is even. -/
  | even
  deriving DecidableEq, Repr

namespace FloatFormat

variable (f : FloatFormat)

/-- A number and the distances to the ends of the interval that rounds to it, in units of
`2 ^ exponent`.  The ends belong to the interval if `closed`. -/
structure Interval where
  center : Nat
  below : Nat
  above : Nat
  exponent : Int
  closed : Bool

/-- The interval around `mantissa * 2 ^ exponent`.  Below a power of two the format is twice as fine
as above. -/
def interval (mantissa : Nat) (exponent : Int) : Interval :=
  let even := mantissa % 2 == 0
  if mantissa = 1 <<< f.fractionBits then ⟨4 * mantissa, 1, 2, exponent - 2, even⟩
  else ⟨2 * mantissa, 1, 1, exponent - 1, even⟩

/-- The multiple of `10 ^ place` in the interval that is nearest to its center, if there is one. -/
def Interval.nearestMultiple? (i : Interval) (tie : TieBreak) (place : Int) : Option Nat :=
  let scale := powerOfTen (-place).toNat <<< i.exponent.toNat
  let unit := powerOfTen place.toNat <<< (-i.exponent).toNat
  let whole := i.center * scale / unit
  let rest := i.center * scale % unit
  let below := i.below * scale
  let above := i.above * scale
  let down := if i.closed then decide (rest ≤ below) else decide (rest < below)
  let up := if i.closed then decide (unit ≤ rest + above) else decide (unit < rest + above)
  let nearer := unit < 2 * rest ∨ unit = 2 * rest ∧ (tie = .upper ∨ whole % 2 = 1)
  if up && (!down || decide nearer) then some (whole + 1)
  else if down then some whole
  else none

/-- Tries the places from `place` downwards, `fuel` of them. -/
def Interval.shortestFrom (i : Interval) (tie : TieBreak) : (fuel : Nat) → (place : Int) → Decimal
  | 0, place => ⟨i.center, place⟩
  | fuel + 1, place =>
    match i.nearestMultiple? tie place with
    | some digits => ⟨digits, place⟩
    | none => i.shortestFrom tie fuel (place - 1)

/-- The shortest decimal that rounds to `mantissa * 2 ^ exponent`, for a positive mantissa.  The
first place tried is above the leading digit, and seventeen digits always tell two numbers of a
format apart. -/
def shortest (tie : TieBreak) (mantissa : Nat) (exponent : Int) : Decimal :=
  let leading := (exponent + mantissa.log2) * 30103 / 100000 + 2
  (f.interval mantissa exponent).shortestFrom tie 24 leading

end FloatFormat

namespace Decimal

def zeros (n : Nat) : String :=
  String.ofList (List.replicate n '0')

/-- Positional notation, with at least `places` digits behind the point. -/
def positional (d : Decimal) (places : Nat) : String :=
  let digits := Numeral.digits 10 d.digits
  let fraction := (-d.exponent).toNat
  if fraction = 0 then
    String.ofList digits ++ zeros d.exponent.toNat ++
      (if places = 0 then "" else "." ++ zeros places)
  else
    let padded := List.replicate (fraction + 1 - digits.length) '0' ++ digits
    let whole := padded.take (padded.length - fraction)
    let rest := padded.drop (padded.length - fraction)
    String.ofList whole ++ "." ++ String.ofList rest ++ zeros (places - fraction)

/-- The exponent of the leading digit. -/
def magnitude (d : Decimal) : Int :=
  d.exponent + ((Numeral.digits 10 d.digits).length - 1 : Nat)

/-- One digit before the point, and an exponent.  A positive exponent has a sign if `signed`. -/
def scientific (d : Decimal) (signed : Bool) : String :=
  let digits := Numeral.digits 10 d.digits
  let point := if digits.length ≤ 1 then "" else "."
  let sign := if signed && decide (0 < d.magnitude) then "+" else ""
  String.ofList (digits.take 1) ++ point ++ String.ofList (digits.drop 1) ++ "e" ++ sign ++
    Numeral.signedDecimal d.magnitude

end Decimal

namespace FloatFormat

variable (f : FloatFormat)

/-- The text of a number whose magnitude is laid out by `finite`. -/
def layOut (tie : TieBreak) (finite : Decimal → String) (pattern : Nat) : String :=
  let sign (negative : Bool) := if negative then "-" else ""
  match f.decode pattern with
  | .nan .. => "NaN"
  | .infinite negative => sign negative ++ "inf"
  | .finite negative 0 _ => sign negative ++ finite ⟨0, 0⟩
  | .finite negative mantissa exponent =>
    sign negative ++ finite (f.shortest tie mantissa exponent)

/-- Positional notation at every magnitude, without a point in whole numbers. -/
def plainText (pattern : Nat) : String :=
  f.layOut .upper (·.positional 0) pattern

/-- How a number is marked as a fraction. -/
structure FractionStyle where
  tie : TieBreak
  /-- The least exponent of the leading digit in positional notation. -/
  least : Int
  /-- A positive exponent has a sign. -/
  signed : Bool
  deriving DecidableEq, Repr

/-- Positional notation down to the least exponent of a style and below `10 ^ 16`, and an exponent
outside; whole numbers end in `.0`. -/
def fractionText (style : FractionStyle) (pattern : Nat) : String :=
  f.layOut style.tie (fun d =>
    if d.digits = 0 ∨ (style.least ≤ d.magnitude ∧ d.magnitude < 16) then d.positional 1
    else d.scientific style.signed) pattern

/-- The pattern nearest to `numerator / denominator * 2 ^ exponent`.  The quotient is taken to more
bits than a pattern has, and a bit behind them says whether it is exact. -/
def ofQuotient (negative : Bool) (numerator denominator : Nat) (exponent : Int) : Nat :=
  let shift := denominator.log2 + f.fractionBits + 4
  let scaled := numerator <<< shift
  let inexact := if scaled % denominator = 0 then 0 else 1
  f.round negative (2 * (scaled / denominator) + inexact) (exponent - (shift + 1 : Nat))

/-- The pattern nearest to a decimal. -/
def ofDecimal (negative : Bool) (d : Decimal) : Nat :=
  f.ofQuotient negative (d.digits * powerOfTen d.exponent.toNat) (powerOfTen (-d.exponent).toNat) 0

end FloatFormat

end TypedMemory
