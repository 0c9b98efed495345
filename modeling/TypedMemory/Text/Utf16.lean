import TypedMemory.Bytes
import TypedMemory.Text.Utf8

/-!
# UTF-16

Text in 16-bit units of either byte order.  A surrogate without its partner, and an odd byte at the
end, are faults; each is replaced.
-/

namespace TypedMemory.Utf16

/-- The units of `bytes`, and whether half a unit is left over. -/
def units (bigEndian : Bool) : Bytes → List Nat × Bool
  | [] => ([], false)
  | [_] => ([], true)
  | a :: b :: rest =>
    let (tail, odd) := units bigEndian rest
    let unit := if bigEndian then a.toNat * 256 + b.toNat else b.toNat * 256 + a.toNat
    (unit :: tail, odd)

def isHigh (unit : Nat) : Bool := 0xd800 ≤ unit && unit < 0xdc00

def isLow (unit : Nat) : Bool := 0xdc00 ≤ unit && unit < 0xe000

/-- The characters of a sequence of units.  `pending` is a high surrogate that waits for its
partner, and `odd` says that half a unit follows; the two together are one fault. -/
def decodeUnits (odd : Bool) : (pending : Option Nat) → List Nat → List Char
  | none, [] => if odd then [Utf8.replacement] else []
  | some _, [] => [Utf8.replacement]
  | none, unit :: rest =>
    if isHigh unit then decodeUnits odd (some unit) rest
    else if isLow unit then Utf8.replacement :: decodeUnits odd none rest
    else Char.ofNat unit :: decodeUnits odd none rest
  | some high, unit :: rest =>
    if isLow unit then
      Char.ofNat (0x10000 + (high - 0xd800) * 1024 + (unit - 0xdc00)) :: decodeUnits odd none rest
    else if isHigh unit then Utf8.replacement :: decodeUnits odd (some unit) rest
    else Utf8.replacement :: Char.ofNat unit :: decodeUnits odd none rest

def decodeLossy (bigEndian : Bool) (bytes : Bytes) : String :=
  let (units, odd) := units bigEndian bytes
  String.ofList (decodeUnits odd none units)

end TypedMemory.Utf16
