import TypedMemory.Rounding
import TypedMemory.StringObject.Content
import TypedMemory.View

/-!
# Strings with an inline buffer

A string object of sixteen bytes that hold either the characters or a pointer to them, followed by
the length and the capacity of the string.  The characters are inline exactly while the capacity,
which does not count the terminator, is below sixteen.

* `ShortString.read`: the text of an object.
* `ShortString.write`: changes the text, and reserves a block when it fits neither inline nor in the
  block that there is.
-/

namespace TypedMemory

structure ShortString where
  object : CompositeView
  buffer : Address
  /-- The address of the pointer to characters outside, which overlaps the inline buffer. -/
  heapSlot : Address

namespace ShortString

variable {σ : Type} (m : Space σ)

def locate (address : Address) (order : ByteOrder) : Except Error ShortString := do
  let object : CompositeView := ⟨address, ← m.layout (.builtin .shortString), order⟩
  let slot ← object.addressOf "content"
  let content := CompositeView.ofSlot slot (← m.layout (.builtin .shortStringContent)) order
  return ⟨object, ← content.addressOf "inline", ← content.addressOf "pointer"⟩

variable (string : ShortString)

def readCount (name : String) : Access σ Nat := do
  let address ← liftM (string.object.addressOf name)
  let count ← m.readWord address string.object.order
  return count.toNat

def writeCount (name : String) (count : Nat) : Access σ Unit := do
  let address ← liftM (string.object.addressOf name)
  m.writeWord address (UInt64.ofNat count) string.object.order

/-- The address of the characters outside the object. -/
def heapAddress : Access σ Address :=
  m.readWord string.heapSlot string.object.order

/-- The text outside the object; nothing without a block or for malformed characters. -/
def readHeap? (length : Nat) : Access σ (Option String) := do
  let heap ← string.heapAddress m
  if heap = 0 then return none
  else
    let bytes ← m.readBytes heap length
    return (StringObject.decodeContent heap bytes).toOption

/-- Puts characters into a new block, of which the size is a power of two. -/
def moveToHeap (data : Bytes) : Access σ Unit := do
  let size := powerOfTwo data.length
  let heap ← m.allocate size
  m.writeWord string.heapSlot heap string.object.order
  m.writeBytes heap data
  string.writeCount m "capacity" (size - 1)

/-- Reads the text of the object at an address.  Malformed characters read as no text; where they
are inline, the bytes may still be a pointer, so the characters that it points to come before that.
-/
def read (address : Address) (order : ByteOrder) : Access σ String := do
  let string ← liftM (locate m address order)
  let length ← string.readCount m "length"
  let capacity ← string.readCount m "capacity"
  if capacity < Builtin.inlineCapacity then
    let bytes ← m.readBytes string.buffer (min length Builtin.inlineCapacity)
    match StringObject.decodeContent string.buffer bytes with
    | .ok text => return text
    | .error _ =>
      let found ← tryCatch (string.readHeap? m length) fun _ => pure none
      return found.getD ""
  else
    let heap ← string.heapAddress m
    if heap = 0 then return ""
    else
      let bytes ← m.readBytes heap length
      return StringObject.contentOrEmpty heap bytes

def write (address : Address) (text : String) (order : ByteOrder) : Access σ Unit := do
  let string ← liftM (locate m address order)
  let capacity ← string.readCount m "capacity"
  let data := StringObject.withTerminator text
  let length := Utf8.size text
  if length ≤ capacity then
    if capacity < Builtin.inlineCapacity then m.writeBytes string.buffer data
    else
      let heap ← string.heapAddress m
      if heap = 0 then string.moveToHeap m data else m.writeBytes heap data
  else if length < Builtin.inlineCapacity then
    m.writeBytes string.buffer data
    string.writeCount m "capacity" (Builtin.inlineCapacity - 1)
  else string.moveToHeap m data
  string.writeCount m "length" length

end ShortString

end TypedMemory
