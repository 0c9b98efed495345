import TypedMemory.Layout

/-!
# Views

A view says where a value lies and how it is read, and holds nothing of the memory.  There is one
for each kind of value that is not read as a whole: arrays, pointers and composites.
-/

namespace TypedMemory

/-- Consecutive elements from an address on. -/
structure ArrayView where
  address : Address
  element : Field
  /-- Nothing for an array without bounds. -/
  length : Option Nat
  order : ByteOrder
  deriving DecidableEq, Repr

structure PointerSlot where
  address : Address
  target : Field
  order : ByteOrder
  deriving DecidableEq, Repr

/-- A composite whose origin, the place of offset zero, is at an address. -/
structure CompositeView where
  address : Address
  layout : Layout
  order : ByteOrder
  deriving DecidableEq, Repr

namespace CompositeView

/-- The composite whose first byte is at `slot`. -/
def ofSlot (slot : Address) (layout : Layout) (order : ByteOrder) : CompositeView :=
  ⟨slot.move (-layout.start), layout, order⟩

def firstByte (c : CompositeView) : Address :=
  c.address.move c.layout.start

def addressOf (c : CompositeView) (name : String) : Except Error Address :=
  (c.layout.find name).map fun field => c.address.move field.offset

end CompositeView

namespace ArrayView

def isEmpty (a : ArrayView) : Bool :=
  a.length == some 0

def isUnbounded (a : ArrayView) : Bool :=
  a.length.isNone

/-- The first `n` elements, or all if there are fewer. -/
def take (a : ArrayView) (n : Nat) : ArrayView :=
  match a.length with
  | some length => { a with length := some (min length n) }
  | none => { a with length := some n }

end ArrayView

def PointerSlot.cast (s : PointerSlot) (target : Field) : PointerSlot :=
  { s with target }

end TypedMemory
