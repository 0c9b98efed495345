/-!
# Rounding sizes

Sizes and offsets are natural numbers.  A target address space has `2 ^ 64` bytes, so a size that
has to exist in it is below `wordLimit`.

* `roundUp`: the least multiple of an alignment at or above a value.
* `roundUp?`: the same, refused when it is no longer a size.
* `powerOfTwo`: the least power of two at or above a value, and `powerOfTwoExponent`.
-/

namespace TypedMemory

/-- One more than the greatest size or address. -/
abbrev wordLimit : Nat := 0x10000000000000000

/-- One more than the greatest offset of a member. -/
abbrev offsetLimit : Nat := 0x8000000000000000

/-- The least multiple of `alignment` at or above `value`.  Alignments 0 and 1 ask for nothing. -/
def roundUp (value alignment : Nat) : Nat :=
  if alignment ≤ 1 then value
  else (value + (alignment - 1)) / alignment * alignment

/-- `roundUp`, or nothing when the result would pass the end of the address space. -/
def roundUp? (value alignment : Nat) : Option Nat :=
  if alignment ≤ 1 then some value
  else
    match value % alignment with
    | 0 => some value
    | excess =>
      let rounded := value + (alignment - excess)
      if rounded < wordLimit then some rounded else none

/-- The least power of two at or above `n`; 1 for zero. -/
def powerOfTwo (n : Nat) : Nat :=
  if n ≤ 1 then 1 else 1 <<< ((n - 1).log2 + 1)

/-- The exponent of `powerOfTwo n`, which is the number of zero bits below its single one. -/
def powerOfTwoExponent (n : Nat) : Nat :=
  (powerOfTwo n).log2

end TypedMemory
