import TypedMemory.Layout.Recall
import TypedMemory.Port

/-!
# Typed address spaces

A `Space` is the memory of a target together with the schema of what lies in it.
-/

namespace TypedMemory

/-- A memory port and the types that its memory holds. -/
structure Space (σ : Type) extends Port σ where
  schema : Schema

namespace Space

variable {σ : Type} (m : Space σ)

def layout (id : TypeId) : Except Error Layout :=
  m.schema.layout m.platform id

def fieldSize (field : Field) : Except Error Nat :=
  field.size m.schema m.platform

end Space

end TypedMemory
