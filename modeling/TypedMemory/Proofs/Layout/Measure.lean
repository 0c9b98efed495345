import TypedMemory.Layout.Resolve
import TypedMemory.Proofs.Results

/-!
# What a member asks of other types

A field asks only for the layout of the one type that it holds by value, and it
asks for that layout before anything else:

* `Measures`: what is known of a member that was measured.
* `measure_congr`: the needs of a member are settled by the layout of its part.
* `measure_of_part_error`: where the part has no layout, the member has that failure.
* `measure_mono`: needs that are found are the same in every schema.
-/

namespace TypedMemory

/-! ### Fields -/

namespace Field

variable {s : Schema} {p : Platform} {layout other : TypeId → Except Error Layout}

theorem alignmentBy_congr {field : Field}
    (h : ∀ id, field.valueType? p = some id → layout id = other id) :
    field.alignmentBy p layout = field.alignmentBy p other := by
  induction field with
  | array element length ih => exact ih h
  | composite id => rw [alignmentBy, alignmentBy, h id rfl]
  | string abi => rw [alignmentBy, alignmentBy, h (abi.objectType p) rfl]
  | void | scalar | pointer | fill => rfl

theorem sizeBy_congr {field : Field}
    (h : ∀ id, field.valueType? p = some id → layout id = other id) :
    field.sizeBy s p layout = field.sizeBy s p other := by
  induction field with
  | array element length ih =>
    cases length with
    | none => rfl
    | some n => rw [sizeBy, sizeBy, ih h]
  | composite id => rw [sizeBy, sizeBy, h id rfl]
  | string abi => rw [sizeBy, sizeBy, h (abi.objectType p) rfl]
  | void | scalar | pointer | fill => rfl

theorem alignmentBy_of_part_error {field : Field} {id : TypeId} {e : Error}
    (hpart : field.valueType? p = some id) (he : layout id = .error e) :
    field.alignmentBy p layout = .error e := by
  induction field with
  | array element length ih => exact ih hpart
  | composite type =>
    cases hpart
    rw [alignmentBy, he]
    rfl
  | string abi =>
    cases hpart
    rw [alignmentBy, he]
    rfl
  | void | scalar | pointer | fill => cases hpart

theorem sizeBy_mono {s' : Schema} {field : Field} {n : Nat}
    (h : field.sizeBy s p layout = .ok n) : field.sizeBy s' p layout = .ok n := by
  induction field generalizing n with
  | array element length ih =>
    cases length with
    | none => cases h
    | some count =>
      rw [sizeBy, bind_eq_ok_iff] at h ⊢
      obtain ⟨size, hsize, h⟩ := h
      refine ⟨size, ih hsize, ?_⟩
      by_cases hfits : size * count < wordLimit
      · rwa [if_pos hfits] at h ⊢
      · rw [if_neg hfits] at h
        cases h
  | void | scalar | pointer | composite | string | fill => exact h

end Field

/-! ### Members -/

/-- What a member needs, where `layout` knows the types. -/
structure Measures (s : Schema) (p : Platform) (layout : TypeId → Except Error Layout) (m : Member)
    (needs : MeasuredMember) : Prop where
  name_eq : needs.name = m.1
  field_eq : needs.field = m.2
  alignment_eq : m.2.alignmentBy p layout = .ok needs.alignment
  size_eq : m.2.isUnsized = false → ∃ n, m.2.sizeBy s p layout = .ok n ∧ needs.size = some n

section Members

variable {s : Schema} {p : Platform} {layout other : TypeId → Except Error Layout} {m : Member}

theorem measures_of_measure {needs : MeasuredMember} (h : measure s p layout m = .ok needs) :
    Measures s p layout m needs := by
  unfold measure at h
  obtain ⟨alignment, halignment, h⟩ := bind_eq_ok_iff.mp h
  split at h
  next hunsized =>
    cases h
    exact ⟨rfl, rfl, halignment, fun hsized => absurd (hsized.symm.trans hunsized) nofun⟩
  next =>
    obtain ⟨size, hsize, h⟩ := bind_eq_ok_iff.mp h
    cases h
    exact ⟨rfl, rfl, halignment, fun _ => ⟨size, hsize, rfl⟩⟩

theorem measure_congr (h : ∀ id, m.2.valueType? p = some id → layout id = other id) :
    measure s p layout m = measure s p other m := by
  rw [measure, measure, Field.alignmentBy_congr h, Field.sizeBy_congr h]

theorem measure_of_part_error {id : TypeId} {e : Error} (hpart : m.2.valueType? p = some id)
    (he : layout id = .error e) : measure s p layout m = .error e := by
  rw [measure, Field.alignmentBy_of_part_error hpart he]
  rfl

/-- A member with known needs has a part with a known layout. -/
theorem exists_part_of_measure {measured : MeasuredMember} {id : TypeId}
    (h : measure s p layout m = .ok measured) (hpart : m.2.valueType? p = some id) :
    ∃ l, layout id = .ok l := by
  cases hl : layout id with
  | ok l => exact ⟨l, rfl⟩
  | error e =>
    rw [measure_of_part_error hpart hl] at h
    cases h

theorem measure_mono {s' : Schema} {measured : MeasuredMember}
    (h : measure s p layout m = .ok measured) : measure s' p layout m = .ok measured := by
  unfold measure at h ⊢
  rw [bind_eq_ok_iff] at h ⊢
  obtain ⟨alignment, halign, h⟩ := h
  refine ⟨alignment, halign, ?_⟩
  by_cases hunsized : m.2.isUnsized = true
  · rwa [if_pos hunsized] at h ⊢
  · rw [if_neg hunsized, bind_eq_ok_iff] at h ⊢
    obtain ⟨size, hsize, h⟩ := h
    exact ⟨size, Field.sizeBy_mono hsize, h⟩

end Members

end TypedMemory
