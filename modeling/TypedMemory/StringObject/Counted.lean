import TypedMemory.Rounding
import TypedMemory.StringObject.Content
import TypedMemory.View.Pointer

/-!
# Strings with counted references

A string object that is a single pointer to its characters.  Directly before these lies a header
with the capacity, the length and the number of references.

* `CountedString.read`: the text of an object; a null pointer stands for no text.
* `CountedString.write`: changes the text, in a new block when it does not fit the old one.
-/

namespace TypedMemory

structure CountedString where
  pointer : PointerSlot
  /-- The header before the characters, unless the pointer is null. -/
  header : Option CompositeView

namespace CountedString

variable {σ : Type} (m : Space σ)

def locate (address : Address) (order : ByteOrder) : Access σ CountedString := do
  let object : CompositeView := ⟨address, ← liftM (m.layout (.builtin .countedString)), order⟩
  let slot ← liftM (object.addressOf "pointer")
  let pointer : PointerSlot := ⟨slot, .composite (.builtin .countedStringHeader), order⟩
  if ← pointer.isNull m then return ⟨pointer, none⟩
  else
    let first ← liftM (pointer.targetSlot m (← pointer.follow m))
    let layout ← liftM (m.layout (.builtin .countedStringHeader))
    return ⟨pointer, some (CompositeView.ofSlot first layout order)⟩

def readCount (header : CompositeView) (name : String) : Access σ Nat := do
  let address ← liftM (header.addressOf name)
  let count ← m.readWord address header.order
  return count.toNat

def writeCount (header : CompositeView) (name : String) (count : Nat) : Access σ Unit := do
  let address ← liftM (header.addressOf name)
  m.writeWord address (UInt64.ofNat count) header.order

def readReferences (header : CompositeView) : Access σ Int := do
  let address ← liftM (header.addressOf "ref_count")
  m.readSignedWord address header.order

def writeReferences (header : CompositeView) (count : Int) : Access σ Unit := do
  let address ← liftM (header.addressOf "ref_count")
  m.writeSignedWord address count header.order

/-- Reads the text of the object at an address.  Malformed characters read as no text. -/
def read (address : Address) (order : ByteOrder) : Access σ String := do
  let string ← locate m address order
  match string.header with
  | none => return ""
  | some header =>
    let length ← readCount m header "length"
    let content ← liftM (header.addressOf "content")
    let bytes ← m.readBytes content length
    return StringObject.contentOrEmpty content bytes

/-- Reserves a block for a header and `length` characters, makes the object point to it and fills in
the header up to the length. -/
def moveToBlock (pointer : PointerSlot) (data : Bytes) (references : Int) :
    Access σ CompositeView := do
  let layout ← liftM (m.layout (.builtin .countedStringHeader))
  let headerSize := layout.start.natAbs
  let size := powerOfTwo (data.length + headerSize)
  let block ← m.allocate size
  let origin := block + UInt64.ofNat headerSize
  pointer.setTargetAddress m origin
  let header : CompositeView := ⟨origin, layout, pointer.order⟩
  writeCount m header "capacity" (size - headerSize - 1)
  writeReferences m header references
  return header

/-- Sets the text of the object at an address.  A new block takes over the number of references. -/
def write (address : Address) (text : String) (order : ByteOrder) : Access σ Unit := do
  let string ← locate m address order
  let data := StringObject.withTerminator text
  let length := Utf8.size text
  let header ←
    match string.header with
    | none => moveToBlock m string.pointer data 0
    | some header => do
      let capacity ← readCount m header "capacity"
      let references ← readReferences m header
      if length ≤ capacity then pure header
      else moveToBlock m string.pointer data references
  writeCount m header "length" length
  let content ← liftM (header.addressOf "content")
  m.writeBytes content data

end CountedString

end TypedMemory
