import TypedMemory.Buffer

/-!
# Building buffers

A `BufferBuilder` collects bytes at addresses and grows to hold them.  Its base is set first; an
address below it can not be written.
-/

namespace TypedMemory

/-- A buffer that grows. -/
structure BufferBuilder where
  platform : Platform
  base : Address
  memory : Bytes
  deriving DecidableEq, Repr

namespace BufferBuilder

/-- The base of a builder that is given none.  It leaves address zero unmapped. -/
def defaultBase : Address := 0x1000

def empty (p : Platform) : BufferBuilder :=
  ⟨p, defaultBase, []⟩

def withBase (b : BufferBuilder) (base : Address) : BufferBuilder :=
  { b with base }

/-- `memory`, with zero bytes at its end if it has less than `size`. -/
def grow (memory : Bytes) (size : Nat) : Bytes :=
  memory ++ List.replicate (size - memory.length) 0

def withSize (b : BufferBuilder) (size : Nat) : BufferBuilder :=
  { b with memory := grow b.memory size }

/-- Puts `data` at an address, unless this lies below the base. -/
def withBytes (b : BufferBuilder) (address : Address) (data : Bytes) : Option BufferBuilder :=
  if address < b.base then none
  else
    let first := address.toNat - b.base.toNat
    let memory := grow b.memory (first + data.length)
    some { b with memory := Buffer.overwrite memory first data }

/-- Puts the low `size` bytes of a word at an address, in the byte order of the platform. -/
def withUnsigned (b : BufferBuilder) (address : Address) (size : Nat) (value : UInt64) :
    Option BufferBuilder :=
  b.withBytes address (bytesOfWord value size (ByteOrder.native.isBigEndian b.platform))

def withWord (b : BufferBuilder) (address : Address) (value : UInt64) : Option BufferBuilder :=
  b.withUnsigned address b.platform.pointerSize value

def build (b : BufferBuilder) : Buffer :=
  ⟨b.base, b.memory, []⟩

end BufferBuilder

end TypedMemory
