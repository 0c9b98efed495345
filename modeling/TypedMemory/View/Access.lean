import TypedMemory.Value.Slot

/-!
# Access through views

Members of composites, elements of arrays and targets of pointers, read and written.  Like a field,
each of them can be assigned a value of another memory.
-/

namespace TypedMemory

variable {σ : Type} (m : Space σ)

namespace CompositeView

variable (c : CompositeView)

def readField (field : PlacedField) : Access σ Value :=
  field.field.read m (c.address.move field.offset) c.order

def get (name : String) : Access σ Value := do
  let field ← liftM (c.layout.find name)
  c.readField m field

def assignFrom (home : Space σ) (name : String) (value : Value) : Access σ Unit := do
  let field ← liftM (c.layout.find name)
  field.field.assignFrom m home (c.address.move field.offset) value c.order

def set (name : String) (value : Value) : Access σ Unit :=
  c.assignFrom m m name value

/-- Reads all members in the order of the layout, each to a value or a failure. -/
def readFields : Access σ (List (String × Except Error Value)) :=
  c.layout.fields.mapM fun field => do
    return (field.name, ← attempt (c.readField m field))

end CompositeView

namespace ArrayView

variable (a : ArrayView)

/-- Refuses an index that is not below the length. -/
def checkIndex (index : Nat) : Except Error Unit :=
  match a.length with
  | some length => if index < length then .ok () else .error (.bounds index length)
  | none => .ok ()

/-- The address of an element, which has to be below the end of the address space. -/
def addressAt (index : Nat) : Except Error Address := do
  a.checkIndex index
  let stride ← m.fieldSize a.element
  let address := a.address.toNat + index * stride
  if address < wordLimit then return UInt64.ofNat address
  else .error (.memoryAccess a.address stride (.elementOutside index))

def get (index : Nat) : Access σ Value := do
  let address ← liftM (a.addressAt m index)
  a.element.read m address a.order

def assignFrom (home : Space σ) (index : Nat) (value : Value) : Access σ Unit := do
  let address ← liftM (a.addressAt m index)
  a.element.assignFrom m home address value a.order

def set (index : Nat) (value : Value) : Access σ Unit :=
  a.assignFrom m m index value

/-- Writes values to consecutive elements from `index` on, up to the first that fails. -/
def setFrom : (index : Nat) → List Value → Access σ Unit
  | _, [] => return ()
  | index, value :: rest => do
    a.set m index value
    setFrom (index + 1) rest

def setAll (values : List Value) : Access σ Unit :=
  a.setFrom m 0 values

/-- Reads all elements, each to a value or a failure.  An array without bounds has no such list. -/
def readAll : Access σ (List (Except Error Value)) :=
  match a.length with
  | none => throw .unboundedIteration
  | some length => (List.range length).mapM fun index => attempt (a.get m index)

/-- The bytes of the first `count` elements.  Their number is a word, so it goes around the end of
the address space. -/
def readImage (count : Nat) : Access σ Bytes :=
  if count = 0 then return []
  else do
    liftM (a.checkIndex (count - 1))
    let stride ← liftM (m.fieldSize a.element)
    m.readBytes a.address (count * stride % wordLimit)

end ArrayView

namespace PointerSlot

variable (slot : PointerSlot)

def get : Access σ Value := do
  let first ← liftM (slot.targetSlot m (← slot.follow m))
  slot.target.read m first slot.order

def assignFrom (home : Space σ) (value : Value) : Access σ Unit := do
  let first ← liftM (slot.targetSlot m (← slot.follow m))
  slot.target.assignFrom m home first value slot.order

def set (value : Value) : Access σ Unit :=
  slot.assignFrom m m value

/-- Reads the element `index` behind the target. -/
def getAt (index : Int) : Access σ Value := do
  let first ← liftM (slot.targetSlot m (← slot.offset m index))
  slot.target.read m first slot.order

end PointerSlot

end TypedMemory
