/-!
# Binary floating point

Floating-point numbers are carried as their bit patterns.  A `FloatFormat` says how a pattern is cut
into sign, exponent and fraction; `FloatFormat.decode` reads it as a `Datum` and `FloatFormat.round`
is the other direction, to the nearest pattern, a tie to the one with an even last bit.  Every
conversion is `round` after `decode`.
-/

namespace TypedMemory

/-- A binary interchange format with a sign bit, an exponent field and a fraction field. -/
structure FloatFormat where
  fractionBits : Nat
  exponentBits : Nat
  deriving DecidableEq, Repr

/-- What a bit pattern stands for. -/
inductive Datum
  /-- No number.  The payload is the fraction field. -/
  | nan (negative : Bool) (payload : Nat)
  | infinite (negative : Bool)
  /-- The number `mantissa * 2 ^ exponent`, negated where it says so. -/
  | finite (negative : Bool) (mantissa : Nat) (exponent : Int)
  deriving DecidableEq, Repr

namespace FloatFormat

def binary32 : FloatFormat := ⟨23, 8⟩

def binary64 : FloatFormat := ⟨52, 11⟩

variable (f : FloatFormat)

/-- The pattern of a positive infinity, which is above all finite ones. -/
def infinity : Nat :=
  ((1 <<< f.exponentBits) - 1) <<< f.fractionBits

def signBit : Nat :=
  1 <<< (f.fractionBits + f.exponentBits)

/-- The exponent of the last fraction bit of the smallest numbers. -/
def leastExponent : Int :=
  2 - (1 <<< (f.exponentBits - 1) : Nat) - f.fractionBits

def withSign (negative : Bool) (magnitude : Nat) : Nat :=
  if negative then f.signBit + magnitude else magnitude

def decode (pattern : Nat) : Datum :=
  let negative := decide (f.signBit ≤ pattern)
  let magnitude := pattern % f.signBit
  let exponent := magnitude >>> f.fractionBits
  let fraction := magnitude % (1 <<< f.fractionBits)
  if exponent = (1 <<< f.exponentBits) - 1 then
    if fraction = 0 then .infinite negative else .nan negative fraction
  else if exponent = 0 then .finite negative fraction f.leastExponent
  else .finite negative ((1 <<< f.fractionBits) + fraction) (f.leastExponent + (exponent - 1 : Int))

/-- `numerator / 2 ^ shift` to the nearest integer, a tie to the even one. -/
def halve (numerator shift : Nat) : Nat :=
  let unit := 1 <<< shift
  let whole := numerator / unit
  let doubled := 2 * (numerator % unit)
  if unit < doubled ∨ (unit = doubled ∧ whole % 2 = 1) then whole + 1 else whole

/-- The pattern nearest to `mantissa * 2 ^ exponent`.  The fields of a pattern are such that a
mantissa which rounds up to the next power of two carries into the exponent by itself. -/
def round (negative : Bool) (mantissa : Nat) (exponent : Int) : Nat :=
  if mantissa = 0 then f.withSign negative 0
  else
    let last := max (exponent + mantissa.log2 - f.fractionBits) f.leastExponent
    let units :=
      if last ≤ exponent then mantissa <<< (exponent - last).toNat
      else halve mantissa (last - exponent).toNat
    let magnitude := ((last - f.leastExponent).toNat <<< f.fractionBits) + units
    f.withSign negative (min magnitude f.infinity)

/-- The pattern for a datum.  A payload is cut or filled on the right and made quiet. -/
def encode (payloadBits : Nat) : Datum → Nat
  | .nan negative payload =>
    let quiet := 1 <<< (f.fractionBits - 1)
    let moved := (payload <<< f.fractionBits) >>> payloadBits
    f.withSign negative (f.infinity + quiet + moved % quiet)
  | .infinite negative => f.withSign negative f.infinity
  | .finite negative mantissa exponent => f.round negative mantissa exponent

/-- The pattern in `g` nearest to a pattern of `f`. -/
def convert (g : FloatFormat) (pattern : Nat) : Nat :=
  g.encode f.fractionBits (f.decode pattern)

def ofInt (n : Int) : Nat :=
  f.round (decide (n < 0)) n.natAbs 0

/-- Equality of numbers: no datum equals a NaN, and the two zeros are equal. -/
def sameNumber (a b : Nat) : Bool :=
  match f.decode a, f.decode b with
  | .nan .., _ => false
  | _, .nan .. => false
  | .finite _ 0 _, .finite _ 0 _ => true
  | x, y => x == y

end FloatFormat

/-- A single precision pattern as double precision, which is exact. -/
def widen (pattern : UInt32) : UInt64 :=
  UInt64.ofNat (FloatFormat.binary32.convert .binary64 pattern.toNat)

/-- A double precision pattern rounded to single precision. -/
def narrow (pattern : UInt64) : UInt32 :=
  UInt32.ofNat (FloatFormat.binary64.convert .binary32 pattern.toNat)

/-- The double precision pattern nearest to an integer. -/
def doubleOfInt (n : Int) : UInt64 :=
  UInt64.ofNat (FloatFormat.binary64.ofInt n)

end TypedMemory
