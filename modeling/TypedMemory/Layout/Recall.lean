import TypedMemory.Layout.Resolve

/-!
# Remembered layouts

A type can occur in others many times over.  `Schema.knownLayoutIn` works its layout out once and
keeps it in a table.  Only layouts are kept, never failures: a type without a layout may still get
its definition.  Since a definition never changes, what is kept is what would be worked out again.

* `Schema.layout`: the layout of a type.
* `Field.size`, `Field.alignment`: the needs of a field.
-/

namespace TypedMemory

/-- The layouts that are known, each for a type on a platform. -/
abbrev LayoutTable := List ((TypeId × Platform) × Layout)

/-- Schema work that uses and extends a table of layouts.  The table is kept on failure. -/
abbrev Recall := ExceptT Error (StateM LayoutTable)

namespace Schema

variable (s : Schema) (p : Platform)

/-- Measures a member with the layout of the one type that it holds by value, taken from `layout`.
A member that holds none asks for no layout. -/
def measureWith (layout : TypeId → Recall Layout) (m : Member) : Recall MeasuredMember :=
  match m.2.valueType? p with
  | some type => do
    let known ← layout type
    liftM (measure s p (fun _ => .ok known) m)
  | none => liftM (measure s p (fun id => .error (s.cycle [] id)) m)

/-- The layout of a type as `layoutIn` works it out, where a known layout is taken as it is and a
new one is kept. -/
def knownLayoutIn : (fuel : Nat) → (path : List TypeId) → TypeId → Recall Layout
  | 0, path, id => throw (s.cycle path id)
  | fuel + 1, path, id => do
    match (← get).lookup (id, p) with
    | some known => return known
    | none =>
      if id ∈ path then throw (s.cycle path id)
      else
        let d ← liftM (s.definition id)
        let members ← liftM (s.members id)
        let measured ← members.mapM (s.measureWith p (knownLayoutIn fuel (path ++ [id])))
        let layout ← liftM (place s p (s.name id) (s.kind id) d measured)
        modify (((id, p), layout) :: ·)
        return layout

/-- Works out the layout of a type from the layouts that are known. -/
def knownLayout (id : TypeId) : Recall Layout :=
  s.knownLayoutIn p (s.size + 1) [] id

def layout (id : TypeId) : Except Error Layout :=
  ((s.knownLayout p id).run []).1

end Schema

namespace Field

variable (s : Schema) (p : Platform)

def size (field : Field) : Except Error Nat :=
  field.sizeBy s p (s.layout p)

def alignment (field : Field) : Except Error Nat :=
  field.alignmentBy p (s.layout p)

end Field

end TypedMemory
