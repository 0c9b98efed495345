import TypedMemory.Bytes
import TypedMemory.Numeral

/-!
# Errors

Everything that can go wrong between a type definition and the memory it describes.  An `Error` is a
cause with the values it concerns; `Error.message` is its wording, and the only place that has one.

`LayoutFault` lists what can be wrong with a type, `AccessFault` what can be wrong with an access.
Both have a case for a fault that was reported from outside, by a memory of another kind.
-/

namespace TypedMemory

/-- What can be wrong with the definition of a type. -/
inductive LayoutFault
  /-- The type, as in `struct Node`, was declared and has no definition. -/
  | undefined (type : String)
  | redefined (type : String)
  /-- The bases of `type` lead back to `link`. -/
  | baseLoop (type link : String)
  /-- `type` is a part of itself, through the types of `path`. -/
  | containsItself (type : String) (path : List String)
  | unionOrigin (type origin : String)
  | unknownOrigin (type origin : String)
  /-- A member without a size stands before the origin field. -/
  | unsizedBeforeOrigin (type member : String)
  /-- A size or an offset passes the end of the address space. -/
  | tooLarge (type : String)
  | reported (text : String)
  deriving DecidableEq, Repr

def LayoutFault.message : LayoutFault → String
  | undefined type => s!"{type} is declared but never defined"
  | redefined type => s!"{type} is already defined"
  | baseLoop type link => s!"base chain of {type} loops back to {link}"
  | containsItself type path =>
    s!"{type} contains itself by value (" ++ " -> ".intercalate path ++ s!" -> {type})"
  | unionOrigin type origin => s!"union {type} can not have an origin field ({origin})"
  | unknownOrigin type origin => s!"origin field {origin} is not a member of {type}"
  | unsizedBeforeOrigin type member =>
    s!"{type}.{member} is unsized and precedes the origin field"
  | tooLarge type => s!"{type} does not fit in memory"
  | reported text => text

/-- What can be wrong with an access to memory. -/
inductive AccessFault
  | belowRegion
  | pastRegion
  | overflow
  /-- Fewer bytes than asked for came back. -/
  | incomplete (received : Nat)
  /-- A scalar has from one to eight bytes. -/
  | scalarSize
  /-- The element lies past the end of the address space. -/
  | elementOutside (index : Nat)
  /-- The pointer would leave the address space. -/
  | moveOutside (delta : Int)
  | reported (text : String)
  deriving DecidableEq, Repr

def AccessFault.message : AccessFault → String
  | belowRegion => "address below mapped region"
  | pastRegion => "address past end of mapped region"
  | overflow => "address overflow"
  | incomplete received => "short read: got " ++ Numeral.decimal received ++ " bytes"
  | scalarSize => "scalar access must be 1..=" ++ Numeral.decimal widestScalar ++ " bytes"
  | elementOutside index =>
    "element " ++ Numeral.decimal index ++ " lies past the end of the address space"
  | moveOutside delta =>
    "moving by " ++ Numeral.signedDecimal delta ++ " elements leaves the address space"
  | reported text => text

inductive Error
  | unsizedType (description : String)
  | layout (fault : LayoutFault)
  | decode (address : Address) (reason : String)
  | memoryAccess (address : Address) (length : Nat) (fault : AccessFault)
  | allocationFailed (size : Nat) (reason : String)
  | bounds (index length : Nat)
  | unboundedIteration
  /-- The pointer stored at `address` is null. -/
  | nullPointer (address : Address)
  | typeMismatch (expected found : String)
  | valueOutOfRange (value : Int) (size : Nat)
  | compositeMismatch (expected found : String)
  | unknownField (type field : String)
  | unsupportedBits (bits : Nat)
  | invalidPlatform (text : String)
  | io (reason : String)
  | json (reason : String)
  deriving DecidableEq, Repr

namespace Error

def message : Error → String
  | unsizedType description => s!"Type has no known size: {description}"
  | layout fault => "Invalid layout: " ++ fault.message
  | decode address reason =>
    "Failed to decode string at address 0x" ++ Numeral.hexLower address.toNat ++ ": " ++ reason
  | memoryAccess address length fault =>
    "Failed to access " ++ Numeral.decimal length ++ " bytes of process memory at address 0x" ++
      Numeral.hexLower address.toNat ++ ": " ++ fault.message
  | allocationFailed size reason =>
    "Failed to allocate " ++ Numeral.decimal size ++ " bytes in target process: " ++ reason
  | bounds index length =>
    "Index " ++ Numeral.decimal index ++ " is out of bounds for array of length " ++
      Numeral.decimal length
  | unboundedIteration => "Can not iterate an array of unknown length"
  | nullPointer address =>
    "Null pointer dereference (pointer stored at 0x" ++ Numeral.hexLower address.toNat ++ ")"
  | typeMismatch expected found => s!"Type mismatch: expected {expected}, got {found}"
  | valueOutOfRange value size =>
    "Value " ++ Numeral.signedDecimal value ++ " does not fit in " ++ Numeral.decimal size ++
      " bytes"
  | compositeMismatch expected found => s!"Can not assign a {found} value to a {expected} slot"
  | unknownField type field => s!"Type {type} has no field named {field}"
  | unsupportedBits bits => "Unsupported bit width: " ++ Numeral.decimal bits
  | invalidPlatform text => s!"Invalid platform: {text}"
  | io reason => s!"IO error: {reason}"
  | json reason => s!"JSON error: {reason}"

/-- The port failed to read, write or allocate. -/
def concernsMemory : Error → Bool
  | memoryAccess .. | allocationFailed .. => true
  | _ => false

/-- The definition of a type is at fault. -/
def concernsSchema : Error → Bool
  | unsizedType _ | layout _ => true
  | _ => false

end Error

end TypedMemory
