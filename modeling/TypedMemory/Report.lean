import TypedMemory.Layout.Recall

/-!
# Layout reports

What there is to say about the layout of a type: where its members lie and what they are.
-/

namespace TypedMemory

structure ReportRow where
  name : String
  /-- The type of the member in short. -/
  type : String
  offset : Int
  size : Nat
  alignment : Nat
  deriving DecidableEq, Repr

structure Report where
  name : String
  kind : TypeKind
  platform : Platform
  size : Nat
  alignment : Nat
  start : Int
  rows : List ReportRow
  deriving DecidableEq, Repr

def PlacedField.row (s : Schema) (field : PlacedField) : ReportRow :=
  ⟨field.name, field.field.describe s, field.offset, field.size, field.alignment⟩

def Layout.report (s : Schema) (l : Layout) : Report :=
  ⟨l.name, l.kind, l.platform, l.size, l.alignment, l.start, l.fields.map (·.row s)⟩

end TypedMemory
