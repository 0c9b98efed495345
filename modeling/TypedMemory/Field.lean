import TypedMemory.ScalarKind
import TypedMemory.StringAbi

/-!
# Fields

A `Field` describes one slot of memory: what kind of value it holds, and neither its address nor its
contents.  A composite field names its type by a `TypeId`, so a field is a finite tree even where
types refer to each other.
-/

namespace TypedMemory

inductive Builtin
  | point | extent | rect | affineTransform | matrix4
  | object | arrayData | array | node
  | shortString | shortStringContent | countedString | countedStringHeader
  deriving DecidableEq, Repr

inductive TypeId
  | builtin (type : Builtin)
  /-- The type that was declared after `index` others. -/
  | declared (index : Nat)
  deriving DecidableEq, Repr

/-- The number of padding bytes on each of some platforms, at most one number for a platform.  The
platforms are in increasing order of `PlatformCounts.rank`, so tables with the same entries are
equal. -/
abbrev PlatformCounts := List (Platform × Nat)

namespace PlatformCounts

/-- The place of a platform in the order of the entries. -/
def rank (p : Platform) : Nat :=
  p.bits.ctorIdx * 21 + p.os.ctorIdx * 3 + p.byteOrder.ctorIdx

def insert (p : Platform) (count : Nat) : PlatformCounts → PlatformCounts
  | [] => [(p, count)]
  | (q, other) :: rest =>
    if p = q then (p, count) :: rest
    else if rank p < rank q then (p, count) :: (q, other) :: rest
    else (q, other) :: insert p count rest

/-- A table with the given entries, the last of several for one platform. -/
def ofList (entries : List (Platform × Nat)) : PlatformCounts :=
  entries.foldl (fun table (p, count) => insert p count table) []

/-- The number for `p`, none by default. -/
def get (table : PlatformCounts) (p : Platform) : Nat :=
  (table.lookup p).getD 0

end PlatformCounts

/-- The description of one slot of memory. -/
inductive Field
  /-- No bytes, as the target of an opaque pointer. -/
  | void
  | scalar (kind : ScalarKind)
  /-- Elements one after the other, of unknown number where there is no `length`. -/
  | array (element : Field) (length : Option Nat)
  | pointer (target : Field)
  | composite (type : TypeId)
  | string (abi : StringAbi)
  /-- Padding, read as characters. -/
  | fill (counts : PlatformCounts)
  deriving DecidableEq, Repr

namespace Field

def isUnsized : Field → Bool
  | array _ none => true
  | _ => false

end Field

end TypedMemory
