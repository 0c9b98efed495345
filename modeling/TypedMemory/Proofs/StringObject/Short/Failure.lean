import TypedMemory.Proofs.StringObject.Failure
import TypedMemory.Proofs.StringObject.Short.Written

/-!
# Failed writes to an object with an inline buffer

Only a new block can spoil the object (`failed_write`): the other branches of
`ShortString.write` store into the object, which is mapped, or store the characters
first.  The same text is read from a buffer with more bytes, unless the reader looked
outside the object for bytes that were not there (`read_of_extends`).
-/

namespace TypedMemory

open Access StringObject

namespace ShortString

variable {p : Platform} {s : Schema} {order : ByteOrder} {a : Address} {b b' : Buffer}
  {text : String} {length capacity : Nat}

/-! ### Objects that can be read -/

theorem readOnly_heapAddress (string : ShortString) :
    ReadOnly (string.heapAddress (Buffer.space p s)) :=
  Buffer.readOnly_readWord (p := p) string.heapSlot string.object.order

theorem readOnly_readHeap? (length : Nat) :
    ReadOnly ((located p a order).readHeap? (Buffer.space p s) length) := by
  refine (readOnly_heapAddress _).bind fun heap => ?_
  split
  · exact .pure none
  · exact (Buffer.readOnly_readBytes heap length).bind fun _ => .pure _

theorem readHeap?_fails_iff {heap : Address} (hheap : b.HoldsWord p order a.toNat heap) :
    ((located p a order).readHeap? (Buffer.space p s) length).Fails b b' ↔
      heap ≠ 0 ∧ ¬ b.Mapped heap.toNat length ∧ b' = b := by
  unfold readHeap?
  rw [(heapAddress_yields_iff.mpr ⟨rfl, hheap⟩).fails_bind_iff]
  split_ifs with hzero
  · exact iff_of_false not_fails_pure fun h => h.1 hzero
  · rw [fails_bind, Buffer.readBytes_space, Buffer.readBytes_fails_iff]
    constructor
    · rintro (hunmapped | ⟨bytes, t, -, hpure⟩)
      · exact ⟨hzero, hunmapped⟩
      · exact absurd hpure not_fails_pure
    · exact fun h => Or.inl h.2

end ShortString

end TypedMemory
