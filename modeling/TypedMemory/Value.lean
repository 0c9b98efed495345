import TypedMemory.Binary
import TypedMemory.View

/-!
# Values

A `Value` is what a field reads as, or is given to write.  Scalars and texts are held themselves;
arrays, pointers and composites are held as views.
-/

namespace TypedMemory

/-- A value read from a field, or about to be written to one. -/
inductive Value
  | void
  | bool (flag : Bool)
  | int (n : Integer)
  /-- A single precision number, by its pattern. -/
  | single (pattern : UInt32)
  /-- A double precision number, by its pattern. -/
  | double (pattern : UInt64)
  | text (content : String)
  | array (view : ArrayView)
  | pointer (slot : PointerSlot)
  | composite (view : CompositeView)
  deriving DecidableEq

namespace Value

def kind : Value → String
  | void => "void"
  | bool _ => "bool"
  | int n => n.type.name
  | single _ => "f32"
  | double _ => "f64"
  | text _ => "text"
  | array _ => "array"
  | pointer _ => "pointer"
  | composite _ => "composite"

def word (w : UInt64) : Value :=
  int (Integer.wrap .u64 w.toNat)

def asInt? : Value → Option Int
  | int n => some n.value
  | _ => none

/-- A number in double precision; integers are rounded. -/
def asDouble? : Value → Option UInt64
  | single pattern => some (widen pattern)
  | double pattern => some pattern
  | int n => some (doubleOfInt n.value)
  | _ => none

def asBool? : Value → Option Bool
  | bool flag => some flag
  | _ => none

def asText? : Value → Option String
  | text content => some content
  | _ => none

/-- Whether two values are the same: scalars of one kind by their number, views by the place that
they show. -/
def same : Value → Value → Bool
  | void, void => true
  | bool a, bool b => a == b
  | int a, int b => a.type == b.type && a.value == b.value
  | single a, single b => FloatFormat.binary32.sameNumber a.toNat b.toNat
  | double a, double b => FloatFormat.binary64.sameNumber a.toNat b.toNat
  | text a, text b => a == b
  | array a, array b => a.address == b.address && a.length == b.length
  | pointer a, pointer b => a.address == b.address
  | composite a, composite b => a.address == b.address && a.layout.name == b.layout.name
  | _, _ => false

/-! ## Conversions -/

/-- The error for a value of another kind than expected. -/
def mismatch (expected : String) (v : Value) : Error :=
  .typeMismatch expected v.kind

/-- The value as an integer of type `t`, whatever integer type it has. -/
def toInteger (t : IntType) (v : Value) : Except Error Integer :=
  match v.asInt? with
  | none => .error (v.mismatch t.name)
  | some n =>
    match Integer.ofInt? t n with
    | some converted => .ok converted
    | none => .error (.valueOutOfRange n t.size)

def toBool (v : Value) : Except Error Bool :=
  match v.asBool? with
  | some flag => .ok flag
  | none => .error (v.mismatch "bool")

def toSingle (v : Value) : Except Error UInt32 :=
  match v.asDouble? with
  | some pattern => .ok (narrow pattern)
  | none => .error (v.mismatch "f32")

def toDouble (v : Value) : Except Error UInt64 :=
  match v.asDouble? with
  | some pattern => .ok pattern
  | none => .error (v.mismatch "f64")

def toText : Value → Except Error String
  | text content => .ok content
  | v => .error (v.mismatch "text")

def toArray : Value → Except Error ArrayView
  | array view => .ok view
  | v => .error (v.mismatch "array")

def toPointer : Value → Except Error PointerSlot
  | pointer slot => .ok slot
  | v => .error (v.mismatch "pointer")

def toComposite : Value → Except Error CompositeView
  | composite view => .ok view
  | v => .error (v.mismatch "composite")

end Value

end TypedMemory
