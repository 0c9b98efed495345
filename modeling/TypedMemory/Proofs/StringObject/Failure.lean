import TypedMemory.Proofs.Buffer.Effects
import TypedMemory.Proofs.StringObject.Content

/-!
# Steps of a write that fail

A write to a string object that needs a new block reserves it, makes the object point to
it and then fills it.  Nothing is taken back when a later step fails (`Redirected`).  This
does not happen if the block has room (`HasRoom`).
-/

namespace TypedMemory

open Access

/-! ### Counts -/

namespace CompositeView

variable {p : Platform} {s : Schema} {b b' : Buffer}

end CompositeView

/-! ### Blocks that can not be completed -/

namespace StringObject

variable {b b' : Buffer} {p : Platform} {order : ByteOrder} {a : Address} {size capacity : Nat}

/-- A new block of `size` bytes can be filled: its capacity is a word, and it ends before the
end of the address space. -/
structure HasRoom (b : Buffer) (p : Platform) (size capacity : Nat) : Prop where
  capacity_lt : capacity < 256 ^ p.pointerSize
  limit_lt : (b.grown size).limit < wordLimit

theorem HasRoom.mapped (h : HasRoom b p size capacity) {offset length : Nat}
    (hin : offset + length ≤ size) :
    (b.grown size).Mapped (b.nextBlock.toNat + offset) length := by
  have hlimit := h.limit_lt
  rw [b.limit_grown] at hlimit
  have hnext := Buffer.toNat_nextBlock_of_lt (b := b) (by omega)
  exact ⟨by rw [b.base_grown]; omega, by rw [b.limit_grown]; omega, by omega⟩

theorem HasRoom.fits (h : HasRoom b p size capacity) {count : Nat} (hle : count ≤ capacity) :
    (UInt64.ofNat count).toNat < 256 ^ p.pointerSize := by
  have hcapacity := h.capacity_lt
  have hword := pow_le_wordLimit p.pointerSize_le
  rw [toNat_ofNat_of_lt (by omega)]
  omega

end StringObject

end TypedMemory
