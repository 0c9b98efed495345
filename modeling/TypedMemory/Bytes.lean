import TypedMemory.Rounding

/-!
# Integers as bytes

The bytes of a number are its digits in base 256.  `Bytes.toNat` and `Bytes.ofNat` have the least
significant digit first, and `arrange` turns them around where the order in memory is the other one.
`wordOfBytes` and `bytesOfWord` are the two directions on 64-bit words; `signExtend` reads the low
bytes of a word as a two's complement integer.
-/

namespace TypedMemory

/-- A run of bytes, lowest address first. -/
abbrev Bytes := List UInt8

/-- An address in the target process. -/
abbrev Address := UInt64

/-- The widest integer that is packed in one access, in bytes. -/
def widestScalar : Nat := 8

namespace Bytes

/-- The number whose base 256 digits are `bytes`, least significant digit first. -/
def toNat : Bytes → Nat
  | [] => 0
  | b :: rest => b.toNat + 256 * toNat rest

/-- The `size` lowest base 256 digits of `n`, least significant digit first. -/
def ofNat : (size n : Nat) → Bytes
  | 0, _ => []
  | size + 1, n => UInt8.ofNat (n % 256) :: ofNat size (n / 256)

end Bytes

/-- Changes between bytes with the least significant digit first and bytes in a given order. -/
def arrange (bigEndian : Bool) (bytes : Bytes) : Bytes :=
  if bigEndian then bytes.reverse else bytes

/-- The word that `bytes` hold.  Digits beyond the eighth fall off the high end. -/
def wordOfBytes (bytes : Bytes) (bigEndian : Bool) : UInt64 :=
  UInt64.ofNat (Bytes.toNat (arrange bigEndian bytes))

/-- The low `size` bytes of `value`, at most eight. -/
def bytesOfWord (value : UInt64) (size : Nat) (bigEndian : Bool) : Bytes :=
  arrange bigEndian (Bytes.ofNat (min size widestScalar) value.toNat)

/-- The low `size` bytes of `value` as a two's complement integer.
A size of zero stands for the whole word. -/
def signExtend (value : UInt64) (size : Nat) : Int :=
  if size = 0 ∨ widestScalar ≤ size then Int.bmod value.toNat wordLimit
  else Int.bmod value.toNat (1 <<< (8 * size))

/-- Whether the 64-bit integer `value` survives a store in `size` bytes. -/
def fitsSigned (value : Int) (size : Nat) : Bool :=
  widestScalar ≤ size || signExtend (UInt64.ofInt value) size == value

/-- Whether the 64-bit word `value` survives a store in `size` bytes. -/
def fitsUnsigned (value : UInt64) (size : Nat) : Bool :=
  widestScalar ≤ size || value.toNat >>> (8 * size) == 0

/-- The address `distance` bytes further, around the end of the address space. -/
def Address.move (address : Address) (distance : Int) : Address :=
  UInt64.ofInt (address.toNat + distance)

end TypedMemory
