import TypedMemory.Proofs.Buffer.Word
import TypedMemory.Proofs.Layout.Recall

/-!
# Where the parts of a string object lie

The types of string objects are predefined, so each has one layout on a platform,
whatever else a schema declares.
-/

namespace TypedMemory

namespace StringObject

variable (p : Platform)

/-- The characters or the pointer to them. -/
def contentLayout : Layout :=
  { name := "std_string_content", kind := .union, platform := p, size := 16
    alignment := p.pointerSize, start := 0
    fields := [⟨"inline", .array (.scalar .ubyte) (some 16), 0, 16, 1⟩,
      ⟨"pointer", .pointer (.array (.scalar .ubyte) none), 0, p.pointerSize, p.pointerSize⟩] }

/-- The object with an inline buffer. -/
def shortLayout : Layout :=
  { name := "std_string", kind := .struct, platform := p, size := 16 + 2 * p.pointerSize
    alignment := p.pointerSize, start := 0
    fields := [⟨"content", .composite (.builtin .shortStringContent), 0, 16, p.pointerSize⟩,
      ⟨"length", .scalar .usize, 16, p.pointerSize, p.pointerSize⟩,
      ⟨"capacity", .scalar .usize, (16 + p.pointerSize : Nat), p.pointerSize, p.pointerSize⟩] }

/-- The object with counted references. -/
def countedLayout : Layout :=
  { name := "old_std_string", kind := .struct, platform := p, size := p.pointerSize
    alignment := p.pointerSize, start := 0
    fields := [⟨"pointer", .pointer (.composite (.builtin .countedStringHeader)), 0,
      p.pointerSize, p.pointerSize⟩] }

/-- The header before the characters of a string with counted references. -/
def headerLayout : Layout :=
  { name := "std_string_header", kind := .struct, platform := p, size := 3 * p.pointerSize
    alignment := p.pointerSize, start := -(3 * p.pointerSize : Nat)
    fields := [⟨"capacity", .scalar .usize, -(3 * p.pointerSize : Nat), p.pointerSize,
        p.pointerSize⟩,
      ⟨"length", .scalar .usize, -(2 * p.pointerSize : Nat), p.pointerSize, p.pointerSize⟩,
      ⟨"ref_count", .scalar .isize, -(p.pointerSize : Nat), p.pointerSize, p.pointerSize⟩,
      ⟨"content", .array (.scalar .ubyte) none, 0, 0, 1⟩] }

end StringObject

open StringObject

/-- The layout of the string objects of a representation. -/
def StringAbi.objectLayout (abi : StringAbi) (p : Platform) : Layout :=
  match abi.resolve p with
  | sso => shortLayout p
  | _ => countedLayout p

namespace Schema

variable (s : Schema) (p : Platform)

theorem layout_shortStringContent :
    s.layout p (.builtin .shortStringContent) = .ok (contentLayout p) := by
  have hplace : s.layout p (.builtin .shortStringContent) = _ := layout_eq_place rfl rfl rfl
  rw [hplace, contentLayout]
  change place s p _ _ _ [⟨_, _, some 16, 1⟩, ⟨_, _, some p.pointerSize, p.pointerSize⟩] = _
  rcases p.pointerSize_cases with h | h | h | h <;> rw [h] <;> rfl

theorem layout_shortString : s.layout p (.builtin .shortString) = .ok (shortLayout p) := by
  have hmeasured : List.mapM (measure s p (s.layout p))
      [("content", .composite (.builtin .shortStringContent)), ("length", .scalar .usize),
        ("capacity", .scalar .usize)] =
      .ok [⟨"content", .composite (.builtin .shortStringContent), some 16, p.pointerSize⟩,
        ⟨"length", .scalar .usize, some p.pointerSize, p.pointerSize⟩,
        ⟨"capacity", .scalar .usize, some p.pointerSize, p.pointerSize⟩] := by
    simp only [List.mapM_cons, measure, Field.alignmentBy, Field.sizeBy,
      layout_shortStringContent s p]
    rfl
  rw [layout_eq_place rfl rfl hmeasured, shortLayout]
  rcases p.pointerSize_cases with h | h | h | h <;> rw [h] <;> rfl

theorem layout_countedStringHeader :
    s.layout p (.builtin .countedStringHeader) = .ok (headerLayout p) := by
  have hplace : s.layout p (.builtin .countedStringHeader) = _ := layout_eq_place rfl rfl rfl
  rw [hplace, headerLayout]
  change place s p _ _ _ [⟨_, _, some p.pointerSize, p.pointerSize⟩,
    ⟨_, _, some p.pointerSize, p.pointerSize⟩, ⟨_, _, some p.pointerSize, p.pointerSize⟩,
    ⟨_, _, none, 1⟩] = _
  rcases p.pointerSize_cases with h | h | h | h <;> rw [h] <;> rfl

theorem layout_countedString :
    s.layout p (.builtin .countedString) = .ok (countedLayout p) := by
  have hplace : s.layout p (.builtin .countedString) = _ := layout_eq_place rfl rfl rfl
  rw [hplace, countedLayout]
  change place s p _ _ _ [⟨_, _, some p.pointerSize, p.pointerSize⟩] = _
  rcases p.pointerSize_cases with h | h | h | h <;> rw [h] <;> rfl

theorem layout_objectType (abi : StringAbi) :
    s.layout p (abi.objectType p) = .ok (abi.objectLayout p) := by
  unfold StringAbi.objectType StringAbi.objectLayout
  cases abi.resolve p with
  | sso => exact s.layout_shortString p
  | refCounted | native => exact s.layout_countedString p

end Schema

end TypedMemory
