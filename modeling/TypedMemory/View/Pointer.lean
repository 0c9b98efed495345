import TypedMemory.Space
import TypedMemory.View

/-!
# Pointer slots

What a pointer slot holds, and where its target lies.  A pointer to a composite holds the address of
its origin.
-/

namespace TypedMemory.PointerSlot

variable {σ : Type} (m : Space σ) (slot : PointerSlot)

def targetAddress : Access σ Address :=
  m.readWord slot.address slot.order

def setTargetAddress (target : Address) : Access σ Unit :=
  m.writeWord slot.address target slot.order

def isNull : Access σ Bool := do
  let target ← slot.targetAddress m
  return target == 0

/-- The address that the slot holds, which may not be null. -/
def follow : Access σ Address := do
  let target ← slot.targetAddress m
  if target = 0 then throw (.nullPointer slot.address)
  else return target

/-- The first byte of the target, if the slot holds `target`. -/
def targetSlot (target : Address) : Except Error Address :=
  match slot.target with
  | .composite type => do
    let layout ← m.layout type
    return target.move layout.start
  | _ => .ok target

/-- The address `delta` elements behind the target. -/
def offset (delta : Int) : Access σ Address := do
  let stride ← liftM (m.fieldSize slot.target)
  let target ← slot.follow m
  let distance := delta * stride
  let moved := target.toNat + distance
  if stride < offsetLimit ∧ -(offsetLimit : Int) ≤ distance ∧ distance < offsetLimit ∧
      0 ≤ moved ∧ moved < wordLimit then
    return UInt64.ofInt moved
  else throw (.memoryAccess target stride (.moveOutside delta))

end TypedMemory.PointerSlot
