import TypedMemory.Binary.Decimal

/-!
# Scaling by powers of ten

A positive double precision number is multiplied or divided by the double precision number nearest
to a power of ten, and the result is rounded.  Powers that are too large for one such number are
taken in steps.
-/

namespace TypedMemory.Json.Scaling

/-- The exponent of the greatest power of ten below the infinity of double precision. -/
def greatestPower : Nat := 308

/-- The mantissa and the exponent of a finite number. -/
def parts (pattern : Nat) : Nat × Int :=
  match FloatFormat.binary64.decode pattern with
  | .finite _ mantissa exponent => (mantissa, exponent)
  | _ => (0, 0)

/-- The parts of the number nearest to a power of ten. -/
def power (n : Nat) : Nat × Int :=
  parts (FloatFormat.binary64.ofDecimal false ⟨1, n⟩)

def product (pattern n : Nat) : Nat :=
  let (mantissa, exponent) := parts pattern
  let (factor, factorExponent) := power n
  FloatFormat.binary64.round false (mantissa * factor) (exponent + factorExponent)

def quotient (pattern n : Nat) : Nat :=
  let (mantissa, exponent) := parts pattern
  let (divisor, divisorExponent) := power n
  FloatFormat.binary64.ofQuotient false mantissa divisor (exponent - divisorExponent)

/-- A number times a power of ten with a positive or negative exponent; nothing beyond the greatest
finite number. -/
def scaled? (pattern : Nat) (exponent : Int) : Option Nat :=
  if exponent.natAbs ≤ greatestPower then
    if exponent < 0 then some (quotient pattern exponent.natAbs)
    else
      let result := product pattern exponent.natAbs
      if result < FloatFormat.binary64.infinity then some result else none
  else if pattern = 0 then some 0
  else if 0 < exponent then none
  else scaled? (quotient pattern greatestPower) (exponent + greatestPower)
termination_by (-exponent).toNat
decreasing_by simp only [greatestPower] at *; omega

end TypedMemory.Json.Scaling
