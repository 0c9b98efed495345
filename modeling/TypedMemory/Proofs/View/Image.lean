import TypedMemory.Proofs.View.Record
import TypedMemory.Proofs.View.Vector

/-!
# Images of composites and arrays

The image of a composite, or of the first elements of an array, is all its bytes, read at
once.  A part that is read by itself has the value that its bytes in the image stand for
(`parts_of_images`).

The two reads count from different addresses.  An image starts with the first byte, and a
member is found from the origin, which may lie among the bytes of the composite or behind
them.  Since the image does not go around the address space, both come to the same place
(`CompositeView.exists_place`).
-/

namespace TypedMemory

open Access Buffer

variable {p : Platform} {s : Schema} {b : Buffer} {bytes : Bytes} {kind : ScalarKind}

namespace CompositeView

variable {c : CompositeView} {id : TypeId} {f : PlacedField}

/-- A member that is not empty starts within the composite, as far behind the first byte as its
offset is behind the start. -/
theorem exists_place (h : Schema.LaysOut s p id c.layout) (hf : f ∈ c.layout.fields)
    (hend : c.firstByte.toNat + c.layout.size ≤ wordLimit) (hpos : 0 < f.size) :
    ∃ first : Nat, (first : Int) = f.offset - c.layout.start ∧ first + f.size ≤ c.layout.size ∧
      c.cell f = c.firstByte.toNat + first := by
  obtain ⟨hlow, hhigh⟩ := h.within hf
  obtain ⟨first, hfirst⟩ := Int.eq_ofNat_of_zero_le (show 0 ≤ f.offset - c.layout.start by omega)
  have hcell := cell_eq_of_laysOut h hend hf hpos
  exact ⟨first, hfirst.symm, by omega, by omega⟩

/-- A plain member has the value of its bytes in the image. -/
theorem content_of_image (hl : s.layout p id = .ok c.layout) (hlimit : b.limit ≤ wordLimit)
    (himage : (c.readImage (space p s)).Yields b bytes b) (hf : f ∈ c.layout.fields)
    (hkind : f.field.plainKind? = some kind) :
    ∃ first : Nat, (first : Int) = f.offset - c.layout.start ∧ first + f.size ≤ bytes.length ∧
      (c.content (space p s) f.name).Yields b
        (kind.decode p c.order ((bytes.drop first).take f.size)) b := by
  have hlays := Schema.layout_eq_ok_iff.mp hl
  obtain ⟨-, hlength, hholds⟩ := readBytes_yields_iff.mp himage
  have hsize : f.size = kind.sizeOn p := hlays.size_of_plainKind? hf hkind
  have hend := hholds.mapped.le_limit
  have hpos := kind.sizeOn_pos p
  obtain ⟨first, hfirst, hle, hcell⟩ := exists_place hlays hf (by omega) (by omega)
  refine ⟨first, hfirst, by omega, ?_⟩
  rw [content_eq (hlays.find_of_mem hf), hsize]
  exact Field.content_yields_part hkind hholds hcell (by omega)

end CompositeView

namespace ArrayView

variable {a : ArrayView} {count index : Nat}

/-- The image of some elements is all of them, one behind the other, if the number of their bytes is
a word. -/
theorem readImage_yields_iff (helement : a.element = .scalar kind) (hcount : 0 < count)
    (hfits : count * kind.sizeOn p < wordLimit) :
    (a.readImage (space p s) count).Yields b bytes b ↔
      (∀ n, a.length = some n → count ≤ n) ∧ bytes.length = count * kind.sizeOn p ∧
        b.Holds a.address.toNat bytes := by
  have hread : a.readImage (space p s) count =
      liftM (a.checkIndex (count - 1)) >>= fun _ =>
        liftM ((space p s).fieldSize a.element) >>= fun stride =>
          readBytes a.address (count * stride % wordLimit) := if_neg hcount.ne'
  have hlast : ∀ n, count - 1 < n ↔ count ≤ n := by
    intro n
    omega
  rw [hread, fieldSize_of_scalar helement]
  simp only [liftM_ok_bind, Nat.mod_eq_of_lt hfits]
  constructor
  · intro h
    obtain ⟨_, _, hinside, h⟩ := yields_bind.mp h
    obtain ⟨hcheck, rfl⟩ := yields_liftM.mp hinside
    obtain ⟨-, hlength, hholds⟩ := readBytes_yields_iff.mp h
    refine ⟨?_, hlength, hholds⟩
    intro n hn
    exact (hlast n).mp (checkIndex_eq_ok_iff.mp hcheck n hn)
  · rintro ⟨hinside, hlength, hholds⟩
    have hcheck : a.checkIndex (count - 1) = .ok () :=
      checkIndex_eq_ok_iff.mpr fun n hn => (hlast n).mpr (hinside n hn)
    rw [hcheck, liftM_ok_bind]
    exact readBytes_yields_iff.mpr ⟨rfl, hlength, hholds⟩

/-- An element has the value of its bytes in the image. -/
theorem get_of_image (helement : a.element = .scalar kind) (hlimit : b.limit ≤ wordLimit)
    (hfits : count * kind.sizeOn p < wordLimit)
    (himage : (a.readImage (space p s) count).Yields b bytes b) (hindex : index < count) :
    (index + 1) * kind.sizeOn p ≤ bytes.length ∧
      (a.get (space p s) index).Yields b
        (kind.decode p a.order ((bytes.drop (index * kind.sizeOn p)).take (kind.sizeOn p))) b := by
  obtain ⟨hinside, hlength, hholds⟩ :=
    (readImage_yields_iff helement (Nat.zero_lt_of_lt hindex) hfits).mp himage
  have hle : (index + 1) * kind.sizeOn p ≤ bytes.length := by
    rw [hlength]
    exact Nat.mul_le_mul_right _ hindex
  refine ⟨hle, ?_⟩
  rw [Nat.succ_mul] at hle
  have hpos := kind.sizeOn_pos p
  have hend := hholds.mapped.le_limit
  have hlt : a.address.toNat + index * kind.sizeOn p < wordLimit := by omega
  have haddress : a.addressAt (space p s) index =
      .ok (UInt64.ofNat (a.address.toNat + index * kind.sizeOn p)) := by
    refine addressAt_eq ?_ (fieldSize_of_scalar helement) hlt
    intro n hn
    exact hindex.trans_le (hinside n hn)
  have hpart := hholds.part (index * kind.sizeOn p) (kind.sizeOn p) hle
  rw [← toNat_ofNat_of_lt hlt] at hpart
  rw [get, haddress, liftM_ok_bind, helement]
  exact ScalarKind.read_yields (length_part hle) hpart

end ArrayView

/-- What is read at once is what is read part by part.  If all bytes of a struct or of a union can
be read, every integer, truth value and pointer in it can be read by itself, and is what its bytes
stand for.  The same holds for the elements of an array, if the number of their bytes is a word. -/
theorem parts_of_images (hlimit : b.limit ≤ wordLimit) :
    (∀ (c : CompositeView) (id : TypeId) (bytes : Bytes), s.layout p id = .ok c.layout →
      (c.readImage (space p s)).Yields b bytes b →
      ∀ f ∈ c.layout.fields, ∀ kind, f.field.plainKind? = some kind →
        ∃ first : Nat, (first : Int) = f.offset - c.layout.start ∧
          first + f.size ≤ bytes.length ∧
          (c.content (space p s) f.name).Yields b
            (kind.decode p c.order ((bytes.drop first).take f.size)) b) ∧
    ∀ (a : ArrayView) (kind : ScalarKind) (count : Nat) (bytes : Bytes),
      a.element = .scalar kind → count * kind.sizeOn p < wordLimit →
      (a.readImage (space p s) count).Yields b bytes b →
      ∀ index < count, (index + 1) * kind.sizeOn p ≤ bytes.length ∧
        (a.get (space p s) index).Yields b
          (kind.decode p a.order ((bytes.drop (index * kind.sizeOn p)).take (kind.sizeOn p))) b := by
  constructor
  · intro c id bytes hl himage f hf kind hkind
    exact CompositeView.content_of_image hl hlimit himage hf hkind
  · intro a kind count bytes helement hfits himage index hindex
    exact ArrayView.get_of_image helement hlimit hfits himage hindex

/-- The member `size` lies before the origin of the node. -/
theorem parts_of_images_countingBuffer :
    let m := space .host CompositeView.nodeSchema
    (CompositeView.nodeView.content m "size").Yields Field.countingBuffer
      (.int (.wrap .i32 0x0a0b0c0d)) Field.countingBuffer ∧
    (ArrayView.shortArray.get m 2).Yields Field.countingBuffer
      (.int (.wrap .u16 0x0607)) Field.countingBuffer := by
  intro m
  have hl : CompositeView.nodeSchema.layout .host (.declared 1) = .ok CompositeView.nodeLayout := by
    decide +kernel
  have hnode : (CompositeView.nodeView.readImage m).Yields Field.countingBuffer
      ((List.range 24).map UInt8.ofNat) Field.countingBuffer := by
    decide +kernel
  have hshorts : (ArrayView.shortArray.readImage m 3).Yields Field.countingBuffer
      [2, 3, 4, 5, 6, 7] Field.countingBuffer := by
    decide +kernel
  obtain ⟨hmembers, helements⟩ := parts_of_images (p := .host) (s := CompositeView.nodeSchema)
    (b := Field.countingBuffer) (by decide)
  constructor
  · obtain ⟨first, hfirst, -, hcontent⟩ := hmembers CompositeView.nodeView (.declared 1) _ hl hnode
      ⟨"size", .scalar .i32, -4, 4, 4⟩ (by decide) .i32 rfl
    have hoffset : (first : Int) = -4 - -14 := hfirst
    obtain rfl : first = 10 := by omega
    have hdecode : ScalarKind.i32.decode .host .big
        ((((List.range 24).map UInt8.ofNat).drop 10).take 4) = .int (.wrap .i32 0x0a0b0c0d) := by
      decide +kernel
    rw [← hdecode]
    exact hcontent
  · exact (helements ArrayView.shortArray .u16 3 _ rfl (by decide) hshorts 2 (by decide)).2

end TypedMemory
