import TypedMemory.StringObject.Counted
import TypedMemory.StringObject.Short
import TypedMemory.Value.Scalar

/-!
# Reading and writing fields

`Field.read` gives the value of a slot.  Reading an array, a pointer or a composite gives a view and
touches no memory.

`Field.assignFrom` stores a value in a slot.  A value that is a view belongs to a memory of its own,
its home, and this is where it is read.  `Field.write` is for values of the memory that they are
stored in.

Assigning to a composite copies all its bytes, and both sides have to be of a type of the same name.
Arrays are not assigned as a whole: writing one has no effect.
-/

namespace TypedMemory

namespace StringAbi

variable {σ : Type} (m : Space σ)

def read (abi : StringAbi) (address : Address) (order : ByteOrder) : Access σ String :=
  match abi.resolve m.platform with
  | sso => ShortString.read m address order
  | _ => CountedString.read m address order

def write (abi : StringAbi) (address : Address) (text : String) (order : ByteOrder) :
    Access σ Unit :=
  match abi.resolve m.platform with
  | sso => ShortString.write m address text order
  | _ => CountedString.write m address text order

end StringAbi

variable {σ : Type} (m : Space σ)

def CompositeView.readImage (c : CompositeView) : Access σ Bytes :=
  m.readBytes c.firstByte c.layout.size

/-- The address that a value gives to a pointer of `m`: the one in another slot, which is a slot of
`home`, or an integer. -/
def Value.pointerTarget (home : Space σ) (v : Value) : Access σ Address :=
  match v with
  | .pointer source => source.targetAddress home
  | v =>
    match v.asInt? with
    | none => throw (v.mismatch "pointer")
    | some n =>
      if 0 ≤ n ∧ n < wordLimit then return UInt64.ofInt n
      else throw (.valueOutOfRange n m.platform.pointerSize)

namespace Field

def read (field : Field) (address : Address) (order : ByteOrder) : Access σ Value :=
  match field with
  | void => return .void
  | scalar kind => kind.read m.toPort address order
  | array element length => return .array ⟨address, element, length, order⟩
  | pointer target => return .pointer ⟨address, target, order⟩
  | composite type => do
    let layout ← liftM (m.layout type)
    return .composite (CompositeView.ofSlot address layout order)
  | string abi => .text <$> abi.read m address order
  | fill counts => return .array ⟨address, scalar .char, some (counts.get m.platform), order⟩

/-- Stores a value in a slot of `m`.  If it is a view, it is one of `home`. -/
def assignFrom (home : Space σ) (field : Field) (address : Address) (value : Value)
    (order : ByteOrder) : Access σ Unit :=
  match field with
  | void | array .. | fill _ => return ()
  | scalar kind => kind.write m.toPort address value order
  | pointer _ => do
    let target ← value.pointerTarget m home
    m.writeWord address target order
  | composite type =>
    match value with
    | .composite source =>
      if source.layout.name = m.schema.name type then do
        let bytes ← source.readImage home
        m.writeBytes address bytes
      else throw (.compositeMismatch (m.schema.name type) source.layout.name)
    | v => throw (v.mismatch "composite")
  | string abi =>
    match value.asText? with
    | some text => abi.write m address text order
    | none => throw (value.mismatch "text")

def write (field : Field) (address : Address) (value : Value) (order : ByteOrder) :
    Access σ Unit :=
  field.assignFrom m m address value order

end Field

end TypedMemory
