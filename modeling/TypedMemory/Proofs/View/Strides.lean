import TypedMemory.Proofs.Layout.Alignment
import TypedMemory.Proofs.View.Navigation

/-!
# Strides

The elements of an array follow each other without gaps.  So they all have the alignment of
the first if the size of an element is a multiple of its alignment.

This is so for scalars, pointers and string objects, and for structs, whose size is rounded up
for it (`Field.alignment_dvd_size`).  The size of a union is that of its greatest member and is
not rounded.  `Field.stride_aligned_iff` says that nothing else disturbs the alignment in an
array.
-/

namespace TypedMemory

open Buffer

namespace Field

variable {s : Schema} {p : Platform} {field : Field} {n alignment : Nat}

theorem alignment_core (field : Field) : field.core.alignment s p = field.alignment s p := by
  induction field with
  | array element length ih => exact ih
  | void | scalar | pointer | composite | string | fill => rfl

theorem exists_core_size (h : field.size s p = .ok n) :
    ∃ size, field.core.size s p = .ok size ∧ n = size * field.count := by
  induction field generalizing n with
  | array element length ih =>
    cases length with
    | none => cases h
    | some length =>
      obtain ⟨stride, hstride, rfl⟩ := size_array_eq_ok h
      obtain ⟨size, hsize, rfl⟩ := ih hstride
      exact ⟨size, hsize, Nat.mul_assoc size element.count length⟩
  | void | scalar | pointer | composite | string | fill => exact ⟨n, h, (Nat.mul_one n).symm⟩

/-- The needs of a field of composites follow from the layout of one. -/
theorem exists_core_layout {type : TypeId} (hcore : field.core = composite type)
    (hsize : field.size s p = .ok n) (halignment : field.alignment s p = .ok alignment) :
    ∃ l, s.layout p type = .ok l ∧ alignment = l.alignment ∧ n = l.size * field.count := by
  obtain ⟨size, hcoreSize, rfl⟩ := exists_core_size hsize
  rw [← alignment_core, hcore] at halignment
  rw [hcore] at hcoreSize
  obtain ⟨l, hl, rfl, rfl⟩ := exists_layout_of_composite hcoreSize halignment
  exact ⟨l, hl, rfl, rfl⟩

/-- The size of a field is a multiple of its alignment, unless it is a union with a size that is
none, or an array of such unions of which the number does not make up for it.  Where it is, the
elements of an array have the alignment of the first. -/
theorem stride_aligned_iff (hsize : field.size s p = .ok n)
    (halignment : field.alignment s p = .ok alignment) :
    (max 1 alignment ∣ n ↔
      ∀ type l, field.core = composite type → s.kind type = .union → s.layout p type = .ok l →
        l.alignment ∣ l.size * field.count) ∧
    (max 1 alignment ∣ n →
      ∀ (view : ArrayView) (index : Nat) (address : Address), view.element = field →
        max 1 alignment ∣ view.address.toNat → view.addressAt (space p s) index = .ok address →
          max 1 alignment ∣ address.toNat) := by
  refine ⟨⟨?_, ?_⟩, ?_⟩
  · intro hdvd type l hcore _ hl
    obtain ⟨l', hl', rfl, rfl⟩ := exists_core_layout hcore hsize halignment
    cases hl.symm.trans hl'
    rwa [max_one_of_isPowerOfTwo (Schema.layout_eq_ok_iff.mp hl).isPowerOfTwo_alignment] at hdvd
  · intro hunion
    by_cases hcore : ∃ type, field.core = composite type ∧ s.kind type = .union
    · obtain ⟨type, hcore, hkind⟩ := hcore
      obtain ⟨l, hl, rfl, rfl⟩ := exists_core_layout hcore hsize halignment
      rw [max_one_of_isPowerOfTwo (Schema.layout_eq_ok_iff.mp hl).isPowerOfTwo_alignment]
      exact hunion type l hcore hkind hl
    · refine alignment_dvd_size ?_ hsize halignment
      intro type htype _
      cases hkind : s.kind type with
      | struct => rfl
      | union => exact absurd ⟨type, htype, hkind⟩ hcore
  · rintro hdvd view index address rfl hfirst haddress
    obtain ⟨-, stride, hstride, -, htoNat⟩ := addressAt_eq_ok_iff.mp haddress
    cases hsize.symm.trans hstride
    rw [htoNat]
    exact Nat.dvd_add hfirst (Nat.dvd_mul_left_of_dvd hdvd index)

/-- A union of which the greatest member is not the one with the greatest alignment, and a struct
that holds it before its origin. -/
def overlaySchema : Schema :=
  { declared := [
      ⟨"Overlay", .union, some
        { fields := [("bytes", .array (.scalar .u8) (some 5)), ("wide", .scalar .u32)] }⟩,
      ⟨"Cell", .struct, some
        { fields := [("overlay", .composite (.declared 0)), ("live", .scalar .bool)]
          origin := some "live" }⟩] }

/-- Groups of four of the unions, which are as long together as they should be. -/
def overlayGroups : ArrayView :=
  ⟨4096, .array (.composite (.declared 0)) (some 4), none, .native⟩

def overlayCells : ArrayView :=
  ⟨4096, .composite (.declared 1), none, .native⟩

theorem stride_aligned_overlayGroups :
    let m := space .host overlaySchema
    (∃ address, overlayGroups.addressAt m 3 = .ok address ∧ 4 ∣ address.toNat) ∧
      ∃ address, overlayCells.addressAt m 3 = .ok address ∧ 4 ∣ address.toNat := by
  intro m
  have hgroupSize : overlayGroups.element.size overlaySchema .host = .ok 20 := by decide +kernel
  have hgroup : overlayGroups.element.alignment overlaySchema .host = .ok 4 := by decide +kernel
  have hcellSize : overlayCells.element.size overlaySchema .host = .ok 8 := by decide +kernel
  have hcell : overlayCells.element.alignment overlaySchema .host = .ok 4 := by decide +kernel
  constructor
  · have haddress : overlayGroups.addressAt (space .host overlaySchema) 3 = .ok 4156 := by
      decide +kernel
    exact ⟨4156, haddress, (stride_aligned_iff hgroupSize hgroup).2 (by decide) overlayGroups 3 4156
      rfl (by decide) haddress⟩
  · have haddress : overlayCells.addressAt (space .host overlaySchema) 3 = .ok 4120 := by
      decide +kernel
    exact ⟨4120, haddress, (stride_aligned_iff hcellSize hcell).2 (by decide) overlayCells 3 4120
      rfl (by decide) haddress⟩

/-- The size of a union need not be a multiple of its alignment. -/
theorem not_stride_aligned_overlay :
    ¬ ∀ (s : Schema) (p : Platform) (field : Field) (n alignment : Nat),
      field.size s p = .ok n → field.alignment s p = .ok alignment → max 1 alignment ∣ n := by
  intro h
  have hdvd := h overlaySchema .host (.composite (.declared 0)) 5 4 (by decide +kernel)
    (by decide +kernel)
  revert hdvd
  decide

end Field

end TypedMemory
