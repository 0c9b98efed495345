import TypedMemory.Rounding
import TypedMemory.Schema.Members

/-!
# Layouts

A `Layout` says where the members of a composite type lie on one platform, relative to an origin.
`Layout.find` looks a member up by its name.
-/

namespace TypedMemory

structure PlacedField where
  name : String
  field : Field
  /-- The distance from the origin; negative before an origin field. -/
  offset : Int
  /-- Zero for an array of unknown length at the end. -/
  size : Nat
  alignment : Nat
  deriving DecidableEq, Repr

/-- The layout of a composite type on one platform. -/
structure Layout where
  name : String
  kind : TypeKind
  platform : Platform
  /-- The size, with the padding at the end. -/
  size : Nat
  alignment : Nat
  /-- The offset of the first byte, which is zero unless there is an origin field. -/
  start : Int
  /-- The members in the order of their declaration. -/
  fields : List PlacedField
  deriving DecidableEq, Repr

namespace Layout

def field? (l : Layout) (name : String) : Option PlacedField :=
  l.fields.find? (·.name == name)

/-- The member of this name, which has to be there. -/
def find (l : Layout) (name : String) : Except Error PlacedField :=
  match l.field? name with
  | some field => .ok field
  | none => .error (.unknownField l.name name)

end Layout

end TypedMemory
