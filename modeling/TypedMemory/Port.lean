import TypedMemory.Binary
import TypedMemory.Error
import TypedMemory.Integer
import TypedMemory.Platform

/-!
# Memory ports

A `Port` is the only way to the memory of the target: it reads and writes bytes and reserves more of
them.  All typed access is made of these.  `Access` is a computation that may fail and that changes
a state; what it has changed before it fails stays changed.

* `Port.readUnsigned`, `readSigned`, `writeUnsigned`, `writeSigned`: integers of one to eight bytes.
* `Port.readInteger`, `writeInteger`: integers of a fixed width.
* `Port.readWord`, `writeWord`: integers as wide as a pointer.
* `Port.readSingle` and so on: floating-point numbers.
-/

namespace TypedMemory

/-- A computation over states of type `σ` that may fail. -/
abbrev Access (σ : Type) := ExceptT Error (StateM σ)

/-- Runs an access and keeps its failure as a result. -/
def attempt {σ α : Type} (access : Access σ α) : Access σ (Except Error α) :=
  tryCatch (Except.ok <$> access) fun e => pure (.error e)

/-- Access to the memory of a target process, whose state is of type `σ`. -/
structure Port (σ : Type) where
  platform : Platform
  /-- Reads bytes from an address on.  A port may fall short and give fewer. -/
  readBytes : Address → (length : Nat) → Access σ Bytes
  writeBytes : Address → Bytes → Access σ Unit
  /-- Reserves bytes and gives the address of the first. -/
  allocate : (size : Nat) → Access σ Address

namespace Port

variable {σ : Type} (port : Port σ)

/-- Whether `order` puts the most significant byte first on this port. -/
def isBigEndian (order : ByteOrder) : Bool :=
  order.isBigEndian port.platform

def readExactly (address : Address) (length : Nat) : Access σ Bytes := do
  let bytes ← port.readBytes address length
  if bytes.length = length then return bytes
  else throw (.memoryAccess address length (.incomplete bytes.length))

/-- Refuses sizes that a scalar can not have. -/
def requireScalarSize (address : Address) (size : Nat) : Access σ Unit :=
  if size = 0 ∨ widestScalar < size then throw (.memoryAccess address size .scalarSize)
  else pure ()

def readUnsigned (address : Address) (size : Nat) (order : ByteOrder) : Access σ UInt64 := do
  requireScalarSize address size
  let bytes ← port.readExactly address size
  return wordOfBytes bytes (port.isBigEndian order)

/-- Reads a two's complement integer of `size` bytes. -/
def readSigned (address : Address) (size : Nat) (order : ByteOrder) : Access σ Int := do
  let raw ← port.readUnsigned address size order
  return signExtend raw size

/-- Writes a word in `size` bytes, which have to hold it. -/
def writeUnsigned (address : Address) (size : Nat) (value : UInt64) (order : ByteOrder) :
    Access σ Unit := do
  requireScalarSize address size
  if fitsUnsigned value size then
    port.writeBytes address (bytesOfWord value size (port.isBigEndian order))
  else throw (.valueOutOfRange value.toNat size)

/-- Writes a 64-bit integer in `size` bytes, which have to hold it. -/
def writeSigned (address : Address) (size : Nat) (value : Int) (order : ByteOrder) :
    Access σ Unit := do
  requireScalarSize address size
  if fitsSigned value size then
    port.writeBytes address (bytesOfWord (UInt64.ofInt value) size (port.isBigEndian order))
  else throw (.valueOutOfRange value size)

def readFixed (address : Address) (size : Nat) (order : ByteOrder) : Access σ Nat := do
  let bytes ← port.readExactly address size
  return Bytes.toNat (arrange (port.isBigEndian order) bytes)

def writeFixed (address : Address) (size bits : Nat) (order : ByteOrder) : Access σ Unit :=
  port.writeBytes address (arrange (port.isBigEndian order) (Bytes.ofNat size bits))

def readInteger (t : IntType) (address : Address) (order : ByteOrder) : Access σ Integer := do
  let bits ← port.readFixed address t.size order
  return Integer.wrap t bits

def writeInteger (address : Address) (value : Integer) (order : ByteOrder) : Access σ Unit :=
  port.writeFixed address value.type.size (value.value % value.type.cardinality).toNat order

def readSingle (address : Address) (order : ByteOrder) : Access σ UInt32 := do
  let bits ← port.readFixed address 4 order
  return UInt32.ofNat bits

def writeSingle (address : Address) (pattern : UInt32) (order : ByteOrder) : Access σ Unit :=
  port.writeFixed address 4 pattern.toNat order

def readDouble (address : Address) (order : ByteOrder) : Access σ UInt64 := do
  let bits ← port.readFixed address 8 order
  return UInt64.ofNat bits

def writeDouble (address : Address) (pattern : UInt64) (order : ByteOrder) : Access σ Unit :=
  port.writeFixed address 8 pattern.toNat order

/-- Reads a byte as a truth value; any but zero is true. -/
def readFlag (address : Address) (order : ByteOrder) : Access σ Bool := do
  let byte ← port.readInteger .u8 address order
  return byte.value != 0

def writeFlag (address : Address) (flag : Bool) (order : ByteOrder) : Access σ Unit :=
  port.writeInteger address (Integer.wrap .u8 (if flag then 1 else 0)) order

def readWord (address : Address) (order : ByteOrder) : Access σ UInt64 :=
  port.readUnsigned address port.platform.pointerSize order

def writeWord (address : Address) (value : UInt64) (order : ByteOrder) : Access σ Unit :=
  port.writeUnsigned address port.platform.pointerSize value order

def readSignedWord (address : Address) (order : ByteOrder) : Access σ Int :=
  port.readSigned address port.platform.pointerSize order

def writeSignedWord (address : Address) (value : Int) (order : ByteOrder) : Access σ Unit :=
  port.writeSigned address port.platform.pointerSize value order

/-- Reads an address in the byte order of the target. -/
def readPointer (address : Address) : Access σ Address :=
  port.readWord address .native

/-- Writes an address in the byte order of the target. -/
def writePointer (address value : Address) : Access σ Unit :=
  port.writeWord address value .native

end Port

end TypedMemory
