import TypedMemory.Layout

/-!
# Placing members

The members of a struct follow each other, each at the next offset that suits its alignment; the
members of a union all start at offset zero.  A struct can name an origin field: it gets offset
zero, and the members before it are packed backwards from there.

* `placeForward`: members from offset zero upwards.
* `placeBackward`: members from offset zero downwards.
* `structPlacement`, `unionPlacement`: a whole type.
-/

namespace TypedMemory

/-- A member of which the needs are known. -/
structure MeasuredMember where
  name : String
  field : Field
  /-- Nothing for an array of unknown length. -/
  size : Option Nat
  alignment : Nat
  deriving DecidableEq, Repr

/-- Where the members of a type go. -/
structure Placement where
  offsets : List Int
  size : Nat
  alignment : Nat
  start : Int
  deriving DecidableEq, Repr

/-- The alignment that a member asks for. -/
def MeasuredMember.placedAlignment (packed : Bool) (m : MeasuredMember) : Nat :=
  if packed then 1 else m.alignment

def commonAlignment (packed : Bool) (members : List MeasuredMember) : Nat :=
  (members.map (·.placedAlignment packed)).foldl max 1

/-- A member of unknown size where its size is needed. -/
def unknownSize (s : Schema) (type : String) (m : MeasuredMember) : Error :=
  .unsizedType (type ++ "." ++ m.name ++ ": " ++ m.field.describe s)

def tooLarge (type : String) : Error :=
  .layout (.tooLarge type)

/-- Places members one after the other, the first at or after `cursor`.  Gives their offsets and the
end of the last.  Only the last may be of unknown size. -/
def placeForward (s : Schema) (type : String) (packed : Bool) :
    (cursor : Nat) → List MeasuredMember → Except Error (List Int × Nat)
  | cursor, [] => .ok ([], cursor)
  | cursor, m :: rest => do
    let size ←
      match m.size with
      | some size => .ok size
      | none => if rest.isEmpty then .ok 0 else .error (unknownSize s type m)
    match roundUp? cursor (m.placedAlignment packed) with
    | none => .error (tooLarge type)
    | some offset =>
      if offset < offsetLimit ∧ offset + size < wordLimit then do
        let (offsets, last) ← placeForward s type packed (offset + size) rest
        return ((offset : Int) :: offsets, last)
      else .error (tooLarge type)

/-- Places members directly below `start` and below each other; the first of the list is the
highest.  Gives their offsets and the lowest of these. -/
def placeBackward (type : String) :
    (start : Int) → List MeasuredMember → Except Error (List Int × Int)
  | start, [] => .ok ([], start)
  | start, m :: rest =>
    match m.size with
    | none => .error (.layout (.unsizedBeforeOrigin type m.name))
    | some size =>
      if size < offsetLimit ∧ -(offsetLimit : Int) ≤ start - size then do
        let (offsets, lowest) ← placeBackward type (start - size) rest
        return ((start - size : Int) :: offsets, lowest)
      else .error (tooLarge type)

/-- The number of members before the origin field. -/
def originIndex (type : String) (members : List MeasuredMember) :
    Option String → Except Error Nat
  | none => .ok 0
  | some origin =>
    match members.findIdx? (·.name == origin) with
    | some index => .ok index
    | none => .error (.layout (.unknownOrigin type origin))

def structPlacement (s : Schema) (type : String) (members : List MeasuredMember) (packed : Bool)
    (origin : Option String) : Except Error Placement := do
  let index ← originIndex type members origin
  let (below, start) ← placeBackward type 0 (members.take index).reverse
  let (above, last) ← placeForward s type packed 0 (members.drop index)
  let alignment := commonAlignment packed members
  let extent := last + start.natAbs
  if extent < wordLimit then
    match roundUp? extent alignment with
    | some size => return ⟨below.reverse ++ above, size, alignment, start⟩
    | none => .error (tooLarge type)
  else .error (tooLarge type)

/-- The greatest size of the members of a union, none of which may be of unknown size. -/
def greatestSize (s : Schema) (type : String) : List MeasuredMember → Except Error Nat
  | [] => .ok 0
  | m :: rest =>
    match m.size with
    | none => .error (unknownSize s type m)
    | some size => (greatestSize s type rest).map (max size)

/-- Places the members of a union.  Its size is that of its greatest member. -/
def unionPlacement (s : Schema) (type : String) (members : List MeasuredMember) (packed : Bool) :
    Except Error Placement := do
  let size ← greatestSize s type members
  return ⟨members.map fun _ => 0, size, commonAlignment packed members, 0⟩

end TypedMemory
