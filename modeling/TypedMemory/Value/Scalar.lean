import TypedMemory.Port
import TypedMemory.ScalarKind
import TypedMemory.Value

/-!
# Scalars in memory

Reading and writing the scalar kinds through a port.

* `ScalarKind.read`: the value in memory, of the integer type that the kind reads as.
* `ScalarKind.write`: stores a value of any kind that fits.
* `ScalarKind.writeInt`: stores an integer of the type that the kind reads as.
-/

namespace TypedMemory.ScalarKind

variable {σ : Type} (port : Port σ)

def intType? : ScalarKind → Option IntType
  | i8 | byte => some .i8
  | char | u8 | ubyte => some .u8
  | i16 | short => some .i16
  | u16 | ushort => some .u16
  | i32 | int => some .i32
  | u32 | uint => some .u32
  | i64 | longlong | long | isize => some .i64
  | u64 | ulonglong | ulong | usize | size => some .u64
  | bool | f32 | f64 | float | double => none

/-- Whether the width of a kind depends on the platform. -/
def isPlatformSized : ScalarKind → Bool
  | isize | usize | size | int | uint | long | ulong => true
  | _ => false

/-- Reads a number of the width that the platform gives to `kind`, as an integer of type `t`. -/
def readSized (kind : ScalarKind) (t : IntType) (address : Address) (order : ByteOrder) :
    Access σ Integer :=
  let size := kind.sizeOn port.platform
  if kind.isSigned then do
    let n ← port.readSigned address size order
    return Integer.wrap t n
  else do
    let n ← port.readUnsigned address size order
    return Integer.wrap t n.toNat

def read (kind : ScalarKind) (address : Address) (order : ByteOrder) : Access σ Value :=
  match kind.intType? with
  | some t =>
    if kind.isPlatformSized then .int <$> kind.readSized port t address order
    else .int <$> port.readInteger t address order
  | none =>
    match kind.encoding with
    | .single => .single <$> port.readSingle address order
    | .double => .double <$> port.readDouble address order
    | _ => .bool <$> port.readFlag address order

/-- Writes an integer of the type that `kind` reads as. -/
def writeInt (kind : ScalarKind) (address : Address) (n : Integer) (order : ByteOrder) :
    Access σ Unit :=
  if kind.isPlatformSized then
    let size := kind.sizeOn port.platform
    if kind.isSigned then port.writeSigned address size n.value order
    else port.writeUnsigned address size (UInt64.ofInt n.value) order
  else port.writeInteger address n order

/-- Writes the number of an integer value, which has to fit the width of `kind`. -/
def writeNumber (kind : ScalarKind) (address : Address) (n : Int) (order : ByteOrder) :
    Access σ Unit :=
  let size := kind.sizeOn port.platform
  if kind.isSigned then
    match Integer.ofInt? .i64 n with
    | some _ => port.writeSigned address size n order
    | none => throw (.valueOutOfRange n size)
  else
    match Integer.ofInt? .u64 n with
    | some _ => port.writeUnsigned address size (UInt64.ofInt n) order
    | none => throw (.valueOutOfRange n size)

/-- Writes a value.  Truth values go to truth values only, any number goes to a floating-point
number, and integers go to integers that hold them. -/
def write (kind : ScalarKind) (address : Address) (value : Value) (order : ByteOrder) :
    Access σ Unit :=
  match kind.encoding with
  | .bool =>
    match value.asBool? with
    | some flag => port.writeFlag address flag order
    | none => throw (value.mismatch kind.name)
  | .single =>
    match value.asDouble? with
    | some pattern => port.writeSingle address (narrow pattern) order
    | none => throw (value.mismatch kind.name)
  | .double =>
    match value.asDouble? with
    | some pattern => port.writeDouble address pattern order
    | none => throw (value.mismatch kind.name)
  | .signed | .unsigned =>
    match value.asInt? with
    | some n => kind.writeNumber port address n order
    | none => throw (value.mismatch kind.name)

end TypedMemory.ScalarKind
