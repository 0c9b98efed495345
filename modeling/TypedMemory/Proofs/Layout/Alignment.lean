import TypedMemory.Proofs.Layout.Embedding
import TypedMemory.Proofs.Layout.Members
import TypedMemory.Proofs.Value.Scalar

/-!
# Alignments are powers of two

An alignment of 0 asks for no more than one of 1 does, so `max 1 alignment` is what it
asks for, and this is a power of two (`Field.isPowerOfTwo_alignment`).  Of two powers of
two the smaller divides the greater.  So a place that suits a struct suits its members
(`LaysOut.alignment_dvd`).  The size of a struct is a multiple of its alignment
(`LaysOut.alignment_dvd_size`), and so is that of every field that holds no union
(`Field.alignment_dvd_size`).
-/

namespace TypedMemory

theorem dvd_of_isPowerOfTwo {a b : Nat} (ha : a.isPowerOfTwo) (hb : b.isPowerOfTwo) (h : a ≤ b) :
    a ∣ b := by
  obtain ⟨i, rfl⟩ := ha
  obtain ⟨j, rfl⟩ := hb
  exact Nat.pow_dvd_pow 2 ((Nat.pow_le_pow_iff_right (by decide)).mp h)

variable {s : Schema} {p : Platform} {layout : TypeId → Except Error Layout} {field : Field}
  {alignment : Nat}

/-! ### Fields, given the alignments of types -/

theorem isPowerOfTwo_of_width {n : Nat} (h : n = 1 ∨ n = 2 ∨ n = 4 ∨ n = 8) :
    n.isPowerOfTwo := by
  rcases h with rfl | rfl | rfl | rfl
  · exact ⟨0, rfl⟩
  · exact ⟨1, rfl⟩
  · exact ⟨2, rfl⟩
  · exact ⟨3, rfl⟩

theorem ScalarKind.isPowerOfTwo_sizeOn (kind : ScalarKind) (p : Platform) :
    (kind.sizeOn p).isPowerOfTwo := by
  have hint := intSize_cases p
  have hlong := longSize_cases p
  cases kind with
  | isize | usize | size => exact isPowerOfTwo_of_width p.pointerSize_cases
  | int | uint => exact isPowerOfTwo_of_width (by simp only [sizeOn]; omega)
  | long | ulong => exact isPowerOfTwo_of_width (by simp only [sizeOn]; omega)
  | _ => exact isPowerOfTwo_of_width (by simp [sizeOn])

theorem max_one_of_isPowerOfTwo {n : Nat} (h : n.isPowerOfTwo) : max 1 n = n :=
  max_eq_right (Nat.pos_of_isPowerOfTwo h)

theorem isPowerOfTwo_max_one {n : Nat} (h : n.isPowerOfTwo) : (max 1 n).isPowerOfTwo := by
  rwa [max_one_of_isPowerOfTwo h]

theorem Field.isPowerOfTwo_alignmentBy
    (hpart : ∀ part l, field.valueType? p = some part → layout part = .ok l →
      (max 1 l.alignment).isPowerOfTwo)
    (h : field.alignmentBy p layout = .ok alignment) : (max 1 alignment).isPowerOfTwo := by
  induction field with
  | array element length ih => exact ih hpart h
  | void | fill =>
    cases h
    exact ⟨0, rfl⟩
  | scalar kind =>
    cases h
    exact isPowerOfTwo_max_one (kind.isPowerOfTwo_sizeOn p)
  | pointer target =>
    cases h
    exact isPowerOfTwo_max_one (isPowerOfTwo_of_width p.pointerSize_cases)
  | composite type =>
    obtain ⟨l, hl, rfl⟩ := map_eq_ok_iff.mp h
    exact hpart type l rfl hl
  | string abi =>
    obtain ⟨l, hl, rfl⟩ := map_eq_ok_iff.mp h
    exact hpart _ l rfl hl

/-! ### Composites -/

variable {ms : List MeasuredMember} {m : MeasuredMember} {packed : Bool} {name : String}
  {kind : TypeKind} {d : Definition} {l : Layout}

theorem isPowerOfTwo_commonAlignment (h : ∀ m ∈ ms, (max 1 m.alignment).isPowerOfTwo) :
    (commonAlignment packed ms).isPowerOfTwo := by
  have hgreatest := isGreatest_commonAlignment packed ms
  rcases hgreatest.1 with hone | ⟨m, hm, halignment⟩
  · rw [hone]
    exact ⟨0, rfl⟩
  · have hpos : 1 ≤ commonAlignment packed ms := hgreatest.2 (Or.inl rfl)
    rw [← max_eq_right hpos, halignment]
    unfold MeasuredMember.placedAlignment
    split
    · exact ⟨0, rfl⟩
    · exact h m hm

/-- The size of a struct is rounded to its alignment. -/
theorem alignment_dvd_size_of_place (h : place s p name .struct d ms = .ok l) :
    max 1 l.alignment ∣ l.size := by
  rw [place_struct] at h
  obtain ⟨placement, hplacement, rfl⟩ := map_eq_ok_iff.mp h
  obtain ⟨index, below, start, above, last, -, -, -, -, rfl⟩ :=
    exists_parts_of_structPlacement hplacement
  exact dvd_roundUp _ _

namespace Schema

variable {id : TypeId} {f : PlacedField}

theorem LaysOut.isPowerOfTwo_alignment (h : LaysOut s p id l) : l.alignment.isPowerOfTwo := by
  induction h with
  | @intro id d ms measured l known hd hms hparts hmeasured hplace ih =>
    rw [alignment_of_place hplace]
    apply isPowerOfTwo_commonAlignment
    intro needs hneeds
    obtain ⟨m, hm, hmeasure⟩ := exists_of_mem_mapM hmeasured hneeds
    refine Field.isPowerOfTwo_alignmentBy ?_ (measures_of_measure hmeasure).alignment_eq
    intro part l' hpart hl'
    cases hl'
    exact isPowerOfTwo_max_one (ih m hm part hpart)

end Schema

theorem Field.isPowerOfTwo_alignment (h : field.alignment s p = .ok alignment) :
    (max 1 alignment).isPowerOfTwo := by
  refine Field.isPowerOfTwo_alignmentBy ?_ h
  intro part l hpart hl
  exact isPowerOfTwo_max_one (Schema.layout_eq_ok_iff.mp hl).isPowerOfTwo_alignment

theorem isPowerOfTwo_of_measured {members : List Member}
    (h : members.mapM (measure s p (s.layout p)) = .ok ms) (hm : m ∈ ms) :
    (max 1 m.alignment).isPowerOfTwo := by
  obtain ⟨member, -, hmember⟩ := exists_of_mem_mapM h hm
  exact Field.isPowerOfTwo_alignment (measures_of_measure hmember).alignment_eq

namespace Schema

variable {id : TypeId} {f : PlacedField}

theorem LaysOut.alignment_dvd_size (h : LaysOut s p id l) (hkind : s.kind id = .struct) :
    max 1 l.alignment ∣ l.size := by
  obtain ⟨d, ms, measured, -, -, -, hplace⟩ := h.exists_place
  rw [hkind] at hplace
  exact alignment_dvd_size_of_place hplace

/-- What suits a struct that is not packed suits all its fields. -/
theorem LaysOut.alignment_dvd (h : LaysOut s p id l) (hd : s.definition id = .ok d)
    (hpacked : d.isPacked = false) (hf : f ∈ l.fields) :
    max 1 f.alignment ∣ max 1 l.alignment := by
  obtain ⟨d', ms, measured, hd', -, -, hplace⟩ := h.exists_place
  cases hd.symm.trans hd'
  have hfield := Field.isPowerOfTwo_alignment (h.alignment_of_mem_fields hf)
  refine dvd_of_isPowerOfTwo hfield (isPowerOfTwo_max_one h.isPowerOfTwo_alignment) ?_
  obtain ⟨offsets, -, hfields⟩ := exists_offsets_of_place hplace
  rw [hfields] at hf
  obtain ⟨m, hm, offset, rfl⟩ := exists_of_mem_zipWith hf
  rw [alignment_of_place hplace]
  have hle : m.placedAlignment d.isPacked ≤ commonAlignment d.isPacked measured :=
    (isGreatest_commonAlignment d.isPacked measured).2 (Or.inr ⟨m, hm, rfl⟩)
  rw [hpacked] at hle ⊢
  exact max_le_max le_rfl hle

/-- The offsets of a struct without an origin that is not packed suit its fields. -/
theorem LaysOut.alignment_dvd_offset (h : LaysOut s p id l) (hkind : s.kind id = .struct)
    (hd : s.definition id = .ok d) (hpacked : d.isPacked = false) (horigin : d.origin = none)
    (hf : f ∈ l.fields) : l.start = 0 ∧ ((max 1 f.alignment : Nat) : Int) ∣ f.offset := by
  obtain ⟨d', ms, measured, hd', -, -, hplace⟩ := h.exists_place
  cases hd.symm.trans hd'
  rw [hkind] at hplace
  obtain ⟨-, -, rfl⟩ := eq_structLayout_of_place horigin hplace
  refine ⟨rfl, ?_⟩
  have haligned := ((fields_structLayout d.isPacked (le_roundUp _ _)).2 f hf).2.2
  rwa [hpacked] at haligned

end Schema

/-! ### Sizes of fields -/

namespace Field

variable {n : Nat}

/-- How many times the core of a field lies in it. -/
def count : Field → Nat
  | array element length => count element * length.getD 0
  | _ => 1

theorem size_array_eq_ok {element : Field} {length : Nat}
    (h : (array element (some length)).size s p = .ok n) :
    ∃ stride, element.size s p = .ok stride ∧ n = stride * length := by
  obtain ⟨stride, hstride, h⟩ := bind_eq_ok_iff.mp h
  split at h
  next =>
    cases h
    exact ⟨stride, hstride, rfl⟩
  next => cases h

theorem kind_objectType (s : Schema) (p : Platform) (abi : StringAbi) :
    s.kind (abi.objectType p) = .struct := by
  unfold StringAbi.objectType
  cases abi.resolve p <;> rfl

/-- The needs of a field that holds one composite are those of the layout of this. -/
theorem exists_layout_of_composite {type : TypeId} (hsize : (composite type).size s p = .ok n)
    (halignment : (composite type).alignment s p = .ok alignment) :
    ∃ l, s.layout p type = .ok l ∧ n = l.size ∧ alignment = l.alignment := by
  obtain ⟨l, hl, rfl⟩ := map_eq_ok_iff.mp hsize
  obtain ⟨l', hl', rfl⟩ := map_eq_ok_iff.mp halignment
  cases hl.symm.trans hl'
  exact ⟨l, hl, rfl, rfl⟩

/-- The size of a field is a multiple of its alignment, unless it holds unions. -/
theorem alignment_dvd_size
    (hstruct : ∀ type, field.core = composite type → field.count ≠ 0 → s.kind type = .struct)
    (hsize : field.size s p = .ok n) (halignment : field.alignment s p = .ok alignment) :
    max 1 alignment ∣ n := by
  induction field generalizing n with
  | void | fill =>
    cases halignment
    exact Nat.one_dvd n
  | scalar kind =>
    cases halignment
    cases hsize
    rw [ScalarKind.alignmentOn, max_one_of_isPowerOfTwo (kind.isPowerOfTwo_sizeOn p)]
  | pointer target =>
    cases halignment
    cases hsize
    rw [max_one_of_isPowerOfTwo (isPowerOfTwo_of_width p.pointerSize_cases)]
  | array element length ih =>
    cases length with
    | none => cases hsize
    | some length =>
      obtain ⟨stride, hstride, rfl⟩ := size_array_eq_ok hsize
      by_cases hlength : length = 0
      · rw [hlength]
        exact Nat.dvd_zero _
      · refine Nat.dvd_mul_right_of_dvd (ih ?_ hstride halignment) length
        intro type hcore hcount
        exact hstruct type hcore (Nat.mul_ne_zero hcount hlength)
  | composite id =>
    obtain ⟨l, hl, rfl, rfl⟩ := exists_layout_of_composite hsize halignment
    exact (Schema.layout_eq_ok_iff.mp hl).alignment_dvd_size (hstruct id rfl nofun)
  | string abi =>
    obtain ⟨l, hl, rfl, rfl⟩ : ∃ l, s.layout p (abi.objectType p) = .ok l ∧ n = l.size ∧
        alignment = l.alignment :=
      exists_layout_of_composite hsize halignment
    exact (Schema.layout_eq_ok_iff.mp hl).alignment_dvd_size (kind_objectType s p abi)

end Field

end TypedMemory
