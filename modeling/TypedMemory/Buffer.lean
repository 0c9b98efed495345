import TypedMemory.Port
import TypedMemory.Rounding

/-!
# Buffers

A `Buffer` is a memory of its own: bytes from a base address on.  Reserving bytes makes it longer,
so reserved blocks follow each other and are never given back.  `Buffer.port` is the port to a
buffer.
-/

namespace TypedMemory

structure Allocation where
  address : Address
  size : Nat
  deriving DecidableEq, Repr

structure Buffer where
  base : Address
  memory : Bytes
  /-- The reserved blocks, oldest first. -/
  allocations : List Allocation := []
  deriving DecidableEq, Repr

/-- Reserved blocks start at multiples of this, counted from the base. -/
def blockAlignment : Nat := 16

namespace Buffer

/-- A region of `size` zero bytes. -/
def zeroed (base : Address) (size : Nat) : Buffer :=
  ⟨base, List.replicate size 0, []⟩

/-- The position of an address in the region, if the `length` bytes from there on are in it. -/
def position (b : Buffer) (address : Address) (length : Nat) : Except Error Nat :=
  let fault (f : AccessFault) : Except Error Nat := .error (.memoryAccess address length f)
  if address < b.base then fault .belowRegion
  else
    let first := address.toNat - b.base.toNat
    if wordLimit ≤ first + length then fault .overflow
    else if b.memory.length < first + length then fault .pastRegion
    else .ok first

/-- `data` in the place of as many bytes of `memory` from `first` on. -/
def overwrite (memory : Bytes) (first : Nat) (data : Bytes) : Bytes :=
  memory.take first ++ data ++ memory.drop (first + data.length)

def readBytes (address : Address) (length : Nat) : Access Buffer Bytes := do
  let b ← get
  let first ← liftM (b.position address length)
  return (b.memory.drop first).take length

def writeBytes (address : Address) (data : Bytes) : Access Buffer Unit := do
  let b ← get
  let first ← liftM (b.position address data.length)
  set { b with memory := overwrite b.memory first data }

/-- Reserves a block of zero bytes behind the region.  The length of the region has no bound here,
so it does not go around the end of the address space. -/
def allocate (size : Nat) : Access Buffer Address := do
  if size = 0 then throw (.allocationFailed size "zero-sized allocation")
  else
    let b ← get
    let first := roundUp b.memory.length blockAlignment
    let address := b.base + UInt64.ofNat first
    let memory := b.memory ++ List.replicate (first + size - b.memory.length) 0
    set { b with memory, allocations := b.allocations ++ [Allocation.mk address size] }
    return address

/-- The port to a buffer that holds the memory of a process on `p`. -/
def port (p : Platform) : Port Buffer :=
  { platform := p, readBytes, writeBytes, allocate }

end Buffer

end TypedMemory
