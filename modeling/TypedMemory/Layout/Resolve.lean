import TypedMemory.Layout.Placement

/-!
# Resolving layouts

The size and alignment of a field follow from the layouts of the types it holds by value, and the
layout of a type from the fields of its members.  A type that would hold itself by value has no
layout; pointers do not count.

* `Field.alignmentBy`, `Field.sizeBy`: the needs of a field, given the layouts of types.
* `Schema.layoutIn`: the layout of a type, where every type is worked out again each time that it
  occurs.
-/

namespace TypedMemory

namespace Field

variable (s : Schema) (p : Platform) (layout : TypeId → Except Error Layout)

/-- The alignment of a field, where `layout` knows the types. -/
def alignmentBy : Field → Except Error Nat
  | void => .ok 0
  | scalar kind => .ok (kind.alignmentOn p)
  | array element _ => alignmentBy element
  | pointer _ => .ok p.pointerSize
  | composite type => (layout type).map (·.alignment)
  | string abi => (layout (abi.objectType p)).map (·.alignment)
  | fill _ => .ok 1

/-- The size of a field, where `layout` knows the types. -/
def sizeBy : Field → Except Error Nat
  | void => .ok 0
  | scalar kind => .ok (kind.sizeOn p)
  | array element (some length) => do
    let size ← sizeBy element
    if size * length < wordLimit then return size * length
    else .error (tooLarge ((array element (some length)).describe s))
  | array element none => .error (.unsizedType ((array element none).describe s))
  | pointer _ => .ok p.pointerSize
  | composite type => (layout type).map (·.size)
  | string abi => (layout (abi.objectType p)).map (·.size)
  | fill counts => .ok (counts.get p)

/-- The type that a field holds by value, if it holds one. -/
def valueType? : Field → Option TypeId
  | array element _ => valueType? element
  | composite type => some type
  | string abi => some (abi.objectType p)
  | void | scalar _ | pointer _ | fill _ => none

end Field

/-- What a member needs.  Its alignment is worked out before its size. -/
def measure (s : Schema) (p : Platform) (layout : TypeId → Except Error Layout) (m : Member) :
    Except Error MeasuredMember := do
  let alignment ← m.2.alignmentBy p layout
  if m.2.isUnsized then return ⟨m.1, m.2, none, alignment⟩
  else return ⟨m.1, m.2, some (← m.2.sizeBy s p layout), alignment⟩

/-- The layout of a type of which the members are measured. -/
def place (s : Schema) (p : Platform) (name : String) (kind : TypeKind) (d : Definition)
    (members : List MeasuredMember) : Except Error Layout := do
  let placement ←
    match kind, d.origin with
    | .struct, origin => structPlacement s name members d.isPacked origin
    | .union, some origin => .error (.layout (.unionOrigin name origin))
    | .union, none => unionPlacement s name members d.isPacked
  return {
    name, kind, platform := p
    size := placement.size
    alignment := placement.alignment
    start := placement.start
    fields := List.zipWith
      (fun m offset => ⟨m.name, m.field, offset, m.size.getD 0, m.alignment⟩)
      members placement.offsets }

namespace Schema

variable (s : Schema) (p : Platform)

/-- A type that is entered again while it is being resolved, at the end of `path`. -/
def cycle (path : List TypeId) (id : TypeId) : Error :=
  .layout (.containsItself (s.name id) (path.map s.name))

/-- The layout of a type which is held by value by the types of `path`, outermost first.  No type is
entered twice, so `fuel` above the number of types suffices. -/
def layoutIn : (fuel : Nat) → (path : List TypeId) → TypeId → Except Error Layout
  | 0, path, id => .error (s.cycle path id)
  | fuel + 1, path, id =>
    if id ∈ path then .error (s.cycle path id)
    else do
      let d ← s.definition id
      let members ← s.members id
      let measured ← members.mapM (measure s p (layoutIn fuel (path ++ [id])))
      place s p (s.name id) (s.kind id) d measured

end Schema

end TypedMemory
