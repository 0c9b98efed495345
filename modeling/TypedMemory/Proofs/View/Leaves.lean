import TypedMemory.Proofs.Layout.Paths
import TypedMemory.Proofs.View.Navigation
import TypedMemory.Proofs.View.Record

/-!
# Leaves through views

Views follow a path one step at a time: the field is read as an array or as a composite,
and the view of it computes the address of an element or of a member.  `Field.locate`
does so for a whole path.  The address that it ends at is that of the place which the
path has in the field (`Field.locate_yields`), also where an origin is in the middle of a
composite.  So the leaves of a field without unions lie apart within its slot, and they
are aligned if the field is (`Field.leaves_apart`).
-/

namespace TypedMemory

open Access

namespace Field

variable {σ : Type} (m : Space σ)

/-- The part of a field to which a step leads, and the address that the view of the field
computes for it. -/
def enter (order : ByteOrder) (field : Field) (slot : Address) : Step → Access σ (Field × Address)
  | .element index => do
    let view ← liftM (← field.read m slot order).toArray
    let address ← liftM (view.addressAt m index)
    return (view.element, address)
  | .member name => do
    let view ← liftM (← field.read m slot order).toComposite
    let placed ← liftM (view.layout.find name)
    let address ← liftM (view.addressOf name)
    return (placed.field, address)

/-- The address at the end of a path. -/
def locate (order : ByteOrder) : Field → Address → List Step → Access σ Address
  | _, slot, [] => return slot
  | field, slot, step :: rest => do
    let (part, address) ← field.enter m order slot step
    part.locate order address rest

variable {m} {order : ByteOrder} {field part leaf leaf' : Field} {slot address address' : Address}
  {step : Step} {path path' : List Step} {st : σ} {n distance size size' alignment : Nat}

/-- A step goes as far as the part is away. -/
theorem enter_yields (h : PartAt m.schema m.platform field step part distance size)
    (hend : slot.toNat + distance < wordLimit) (order : ByteOrder) (st : σ) :
    ∃ address, (field.enter m order slot step).Yields st (part, address) st ∧
      address.toNat = slot.toNat + distance := by
  cases h with
  | @element _ length index size hindex hsize =>
    have hlength : ∀ n, some length = some n → index < n := by
      rintro n ⟨⟩
      exact hindex
    have haddress : (ArrayView.mk slot part (some length) order).addressAt m index =
        .ok (UInt64.ofNat (slot.toNat + index * size)) :=
      addressAt_eq hlength hsize hend
    refine ⟨_, ?_, toNat_ofNat_of_lt hend⟩
    show (liftM (ArrayView.addressAt m _ index) >>= _ : Access σ _).Yields st _ st
    rw [haddress]
    rfl
  | @member type l f name distance hkind hl hf hname hsize hdistance =>
    have hfind : l.find name = .ok f := by
      rw [← hname]
      exact (Schema.layout_eq_ok_iff.mp hl).find_of_mem hf
    refine ⟨(slot.move (-l.start)).move f.offset, ?_, Address.toNat_move_neg_move hdistance hend⟩
    show (liftM (m.layout type) >>= _ >>= _ : Access σ _).Yields st _ st
    rw [Space.layout, hl]
    show (liftM (l.find name) >>= fun placed => liftM ((l.find name).map _) >>= _ :
      Access σ _).Yields st _ st
    rw [hfind]
    rfl

theorem locate_yields (h : PathAt m.schema m.platform field path leaf distance)
    (hend : slot.toNat + distance < wordLimit) (order : ByteOrder) (st : σ) :
    ∃ address, (field.locate m order slot path).Yields st address st ∧
      address.toNat = slot.toNat + distance := by
  induction h generalizing slot with
  | here => exact ⟨slot, rfl, rfl⟩
  | @step field part last step rest distance size more hpart hrest ih =>
    have hfirstend : slot.toNat + distance < wordLimit := by omega
    obtain ⟨first, hfirst, hdistance⟩ := enter_yields hpart hfirstend order st
    have hrestend : first.toNat + more < wordLimit := by omega
    obtain ⟨address, hlocate, hmore⟩ := ih hrestend
    refine ⟨address, ?_, by omega⟩
    show (field.enter m order slot step >>= _).Yields st address st
    rw [hfirst.bind_iff]
    exact hlocate

/-! ### Leaves -/

/-- A leaf of a field in a slot, at the address that the views compute. -/
structure LeafAt (m : Space σ) (st : σ) (order : ByteOrder) (field : Field) (slot : Address)
    (path : List Step) (leaf : Field) (address : Address) (size : Nat) : Prop where
  isPath : IsPath m.schema field path leaf
  isLeaf : leaf.isLeaf = true
  located : (field.locate m order slot path).Yields st address st
  size_eq : m.fieldSize leaf = .ok size

section

variable (hsize : m.fieldSize field = .ok n) (hend : slot.toNat + n < wordLimit)
  (hstruct : EachType m.schema field fun id => m.schema.kind id = .struct)

include hsize hend hstruct

theorem exists_leafAt (hpath : IsPath m.schema field path leaf) (hleaf : leaf.isLeaf = true)
    (order : ByteOrder) (st : σ) :
    ∃ address size, LeafAt m st order field slot path leaf address size := by
  obtain ⟨distance, hat⟩ := exists_pathAt hpath hleaf hsize hstruct
  obtain ⟨size, hleafsize, hle⟩ := hat.exists_size hsize
  have hstart : slot.toNat + distance < wordLimit := by omega
  obtain ⟨address, hlocate, -⟩ := locate_yields hat hstart order st
  exact ⟨address, size, hpath, hleaf, hlocate, hleafsize⟩

/-- The address of a leaf is that of its place in the field. -/
theorem LeafAt.exists_pathAt (h : LeafAt m st order field slot path leaf address size) :
    ∃ distance, PathAt m.schema m.platform field path leaf distance ∧
      address.toNat = slot.toNat + distance ∧ distance + size ≤ n := by
  obtain ⟨distance, hat⟩ := Field.exists_pathAt h.isPath h.isLeaf hsize hstruct
  have hle := hat.add_le hsize h.size_eq
  have hstart : slot.toNat + distance < wordLimit := by omega
  obtain ⟨found, hlocate, hfound⟩ := locate_yields hat hstart order st
  cases (h.located.unique hlocate).1
  exact ⟨distance, hat, hfound, hle⟩

end

theorem alignment_pos_of_isLeaf {s : Schema} {p : Platform} (hleaf : leaf.isLeaf = true)
    (h : leaf.alignment s p = .ok alignment) : 0 < alignment := by
  cases leaf with
  | scalar kind =>
    cases h
    exact kind.sizeOn_pos p
  | pointer target =>
    cases h
    exact p.pointerSize_pos
  | string abi =>
    obtain ⟨l, hl, rfl⟩ := map_eq_ok_iff.mp h
    exact Nat.pos_of_isPowerOfTwo (Schema.layout_eq_ok_iff.mp hl).isPowerOfTwo_alignment
  | fill counts =>
    cases h
    exact Nat.one_pos
  | void | array | composite => cases hleaf

/-- The views find each leaf of a field without unions within the slot of the field, and
different leaves apart.  If no struct is packed or has an origin, and the slot suits the
field, each leaf is aligned. -/
theorem leaves_apart (hsize : m.fieldSize field = .ok n) (hend : slot.toNat + n < wordLimit)
    (hstruct : EachType m.schema field fun id => m.schema.kind id = .struct) (order : ByteOrder)
    (st : σ) :
    (∀ path leaf, IsPath m.schema field path leaf → leaf.isLeaf = true →
      ∃ address size, LeafAt m st order field slot path leaf address size) ∧
    (∀ path leaf address size, LeafAt m st order field slot path leaf address size →
      slot.toNat ≤ address.toNat ∧ address.toNat + size ≤ slot.toNat + n) ∧
    (∀ path path' leaf leaf' address address' size size',
      LeafAt m st order field slot path leaf address size →
      LeafAt m st order field slot path' leaf' address' size' → path ≠ path' →
        address.toNat + size ≤ address'.toNat ∨ address'.toNat + size' ≤ address.toNat) ∧
    (∀ alignment, EachType m.schema field (Plain m.schema) →
      field.alignment m.schema m.platform = .ok alignment → max 1 alignment ∣ slot.toNat →
        ∀ path leaf address size, LeafAt m st order field slot path leaf address size →
          ∃ a, leaf.alignment m.schema m.platform = .ok a ∧ a ∣ address.toNat) := by
  refine ⟨?_, ?_, ?_, ?_⟩
  · intro path leaf hpath hleaf
    exact exists_leafAt hsize hend hstruct hpath hleaf order st
  · intro path leaf address size h
    obtain ⟨distance, -, haddress, hle⟩ := h.exists_pathAt hsize hend hstruct
    omega
  · intro path path' leaf leaf' address address' size size' h h' hne
    obtain ⟨distance, hat, haddress, -⟩ := h.exists_pathAt hsize hend hstruct
    obtain ⟨distance', hat', haddress', -⟩ := h'.exists_pathAt hsize hend hstruct
    have hapart := hat.apart hat' h.isLeaf h'.isLeaf h.size_eq h'.size_eq hne
    omega
  · intro alignment hplain halignment hslot path leaf address size h
    obtain ⟨distance, hat, haddress, -⟩ := h.exists_pathAt hsize hend hstruct
    obtain ⟨a, ha, hdvd, hdistance⟩ := hat.exists_alignment hplain halignment
    refine ⟨a, ha, ?_⟩
    have hpos := alignment_pos_of_isLeaf h.isLeaf ha
    rw [max_eq_right hpos] at hdvd hdistance
    rw [haddress]
    exact Nat.dvd_add (hdvd.trans hslot) hdistance

/-- Structs in an array in a struct, with a pointer, a string object and padding. -/
def gridSchema : Schema :=
  { declared := [
      ⟨"Cell", .struct, some { fields := [("flag", .scalar .bool), ("value", .scalar .u32)] }⟩,
      ⟨"Grid", .struct, some
        { fields := [("cells", .array (.composite (.declared 0)) (some 2)),
          ("next", .pointer (.composite (.declared 1))), ("label", .string .sso),
          ("rest", .fill [(.host, 3)])] }⟩] }

/-- Two grids. -/
def gridField : Field := .array (.composite (.declared 1)) (some 2)

theorem members_cell : gridSchema.members (.declared 0) =
    .ok [("flag", .scalar .bool), ("value", .scalar .u32)] := by
  decide +kernel

theorem members_grid : gridSchema.members (.declared 1) =
    .ok [("cells", .array (.composite (.declared 0)) (some 2)),
      ("next", .pointer (.composite (.declared 1))), ("label", .string .sso),
      ("rest", .fill [(.host, 3)])] := by
  decide +kernel

theorem plain_gridField : EachType gridSchema gridField (Plain gridSchema) := by
  have hcell : Plain gridSchema (.declared 0) := ⟨rfl, by rintro d ⟨⟩; exact ⟨rfl, rfl⟩⟩
  have hgrid : Plain gridSchema (.declared 1) := ⟨rfl, by rintro d ⟨⟩; exact ⟨rfl, rfl⟩⟩
  refine eachType_array (eachType_composite hgrid members_grid ?_)
  simp only [List.forall_mem_cons]
  refine ⟨eachType_array (eachType_composite hcell members_cell ?_), eachType_of_isLeaf rfl,
    eachType_of_isLeaf rfl, eachType_of_isLeaf rfl, nofun⟩
  simp only [List.forall_mem_cons]
  exact ⟨eachType_of_isLeaf rfl, eachType_of_isLeaf rfl, nofun⟩

theorem leaves_apart_grids :
    ∃ address address',
      LeafAt (Buffer.space .host gridSchema) (.zeroed 4096 128) .native gridField 4096
        [.element 1, .member "cells", .element 0, .member "value"] (.scalar .u32) address 4 ∧
      LeafAt (Buffer.space .host gridSchema) (.zeroed 4096 128) .native gridField 4096
        [.element 1, .member "label"] (.string .sso) address' 32 ∧
      (address.toNat + 4 ≤ address'.toNat ∨ address'.toNat + 32 ≤ address.toNat) ∧
      ∃ a, (Field.scalar .u32).alignment gridSchema .host = .ok a ∧ a ∣ address.toNat := by
  have hsize : (Buffer.space .host gridSchema).fieldSize gridField = .ok 128 := by
    decide +kernel
  have hstruct : EachType gridSchema gridField fun id => gridSchema.kind id = .struct :=
    fun path id hpath => (plain_gridField path id hpath).1
  have hcell : IsPath gridSchema (.composite (.declared 0)) [.member "value"] (.scalar .u32) :=
    .step (.member members_cell (by simp)) .here
  have hcells : IsPath gridSchema (.array (.composite (.declared 0)) (some 2))
      [.element 0, .member "value"] (.scalar .u32) :=
    .step (.element (by decide)) hcell
  have hvalue : IsPath gridSchema gridField
      [.element 1, .member "cells", .element 0, .member "value"] (.scalar .u32) :=
    .step (.element (by decide)) (.step (.member members_grid (by simp)) hcells)
  have hlabel : IsPath gridSchema gridField [.element 1, .member "label"] (.string .sso) :=
    .step (.element (by decide)) (.step (.member members_grid (by simp)) .here)
  have hend : (4096 : Address).toNat + 128 < wordLimit := by decide
  obtain ⟨hleaves, -, hapart, haligned⟩ :=
    leaves_apart hsize hend hstruct .native (Buffer.zeroed 4096 128)
  obtain ⟨address, size, hfirst⟩ := hleaves _ _ hvalue rfl
  obtain ⟨address', size', hsecond⟩ := hleaves _ _ hlabel rfl
  have hfour : (Field.scalar .u32).size gridSchema .host = .ok 4 := rfl
  have hwide : (Field.string .sso).size gridSchema .host = .ok 32 := by decide +kernel
  cases hfirst.size_eq.symm.trans hfour
  cases hsecond.size_eq.symm.trans hwide
  refine ⟨address, address', hfirst, hsecond, ?_, ?_⟩
  · exact hapart _ _ _ _ _ _ _ _ hfirst hsecond (by decide)
  · exact haligned 8 plain_gridField (by decide +kernel) (by decide) _ _ _ _ hfirst

end Field

end TypedMemory
