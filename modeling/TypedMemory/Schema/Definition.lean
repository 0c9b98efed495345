import TypedMemory.Field

/-!
# Type definitions

A `Definition` is the body of a composite type: its own members, the type whose members come before
them, and how they are to be placed.
-/

namespace TypedMemory

/-- Whether the members of a type follow each other or overlap. -/
inductive TypeKind
  | struct
  | union
  deriving DecidableEq, Repr

def TypeKind.name : TypeKind → String
  | struct => "struct" | union => "union"

structure Definition where
  /-- The type whose members come first. -/
  base : Option TypeId := none
  /-- The members in the order of their declaration.  Names may repeat. -/
  fields : List (String × Field) := []
  /-- Members are placed without padding. -/
  isPacked : Bool := false
  /-- A pointer to a table of functions leads the members. -/
  hasVtable : Bool := false
  /-- The member at offset zero; those before it get negative offsets. -/
  origin : Option String := none
  deriving DecidableEq, Repr

structure TypeEntry where
  name : String
  kind : TypeKind
  /-- Nothing for a type that is only declared. -/
  definition : Option Definition
  deriving DecidableEq, Repr

/-- The kind and name of a type, as in `struct Node`. -/
def TypeEntry.describe (entry : TypeEntry) : String :=
  entry.kind.name ++ " " ++ entry.name

end TypedMemory
