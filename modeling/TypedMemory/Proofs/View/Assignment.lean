import TypedMemory.Proofs.Layout.Extent
import TypedMemory.Proofs.Layout.Paths
import TypedMemory.Proofs.View.Navigation
import TypedMemory.Proofs.View.Record

/-!
# Assignment of composites

Assigning a composite moves its bytes: all of them are read before the first is written, so
the ranges may overlap.  The source is found from its origin and the target is given by its
first byte, and a view of the target has its origin as far behind the first byte as the
source has (`Field.write_composite_moves`).

What a view shows at the end of a path depends on the bytes alone.  The path goes as far
from the first byte of each composite of one type (`Field.exists_follow`), so it finds the
same bytes in the target as it found in the source.
-/

namespace TypedMemory

open Access Buffer

namespace Field

/-- The hop by which a view takes the step. -/
def Step.hop : Step → Hop
  | element index => .element index
  | member name => .member name

variable {σ : Type} {m : Space σ} {field part leaf : Field} {step : Step} {path : List Step}
  {n : Nat}

/-- A part lies within the bytes of its field, in a union too, and a view finds it there. -/
theorem exists_hop (hpart : IsPart m.schema field step part) (hsized : part.isUnsized = false)
    (hsize : m.fieldSize field = .ok n) :
    ∃ distance size, m.fieldSize part = .ok size ∧ distance + size ≤ n ∧
      ∀ (slot : Address) (order : ByteOrder), slot.toNat + distance < wordLimit →
        ∃ address : Address, address.toNat = slot.toNat + distance ∧
          (field.read m slot order >>= fun v => v.hop m step.hop) = part.read m address order := by
  cases hpart with
  | @element _ length index hindex =>
    obtain ⟨stride, hstride, rfl⟩ := size_array_eq_ok hsize
    refine ⟨index * stride, stride, hstride, ?_, fun slot order hend => ?_⟩
    · rw [← Nat.succ_mul, Nat.mul_comm]
      exact Nat.mul_le_mul_left stride hindex
    · have hlength : ∀ k, some length = some k → index < k := by
        rintro k ⟨⟩
        exact hindex
      have haddress : (ArrayView.mk slot part (some length) order).addressAt m index =
          .ok (UInt64.ofNat (slot.toNat + index * stride)) :=
        addressAt_eq hlength hstride hend
      refine ⟨_, toNat_ofNat_of_lt hend, ?_⟩
      have hhop : ((array part (some length)).read m slot order >>= fun v =>
          v.hop m (.element index)) =
            liftM (ArrayView.addressAt m ⟨slot, part, some length, order⟩ index) >>= fun address =>
              part.read m address order := rfl
      rw [Step.hop, hhop, haddress, liftM_ok_bind]
  | @member type ms name part hms hm =>
    obtain ⟨l, hl, rfl⟩ := map_eq_ok_iff.mp hsize
    have hlays := Schema.layout_eq_ok_iff.mp hl
    cases hms.symm.trans hlays.members_eq
    obtain ⟨f, hf, hmember⟩ := List.mem_map.mp hm
    cases hmember
    obtain ⟨hstart, hend⟩ := hlays.within hf
    have hdistance : ((f.offset - l.start).toNat : Int) = f.offset - l.start := by omega
    refine ⟨(f.offset - l.start).toNat, f.size, hlays.size_of_mem_fields hf hsized, by omega,
      fun slot order hlt => ⟨(slot.move (-l.start)).move f.offset, ?_, ?_⟩⟩
    · exact Address.toNat_move_neg_move hdistance hlt
    · have hview : (composite type).read m slot order =
          pure (.composite (CompositeView.ofSlot slot l order)) := by
        show liftM (m.schema.layout m.platform type) >>= _ = _
        rw [hl]
        rfl
      rw [hview, pure_bind]
      show (liftM (l.find f.name) >>= _ : Access σ Value) = _
      rw [hlays.find_of_mem hf]
      rfl

/-- The leaf at the end of a path lies within the bytes of the field, and views find it there. -/
theorem exists_follow (hpath : IsPath m.schema field path leaf) (hleaf : leaf.isLeaf = true)
    (hsize : m.fieldSize field = .ok n) :
    ∃ distance size, m.fieldSize leaf = .ok size ∧ distance + size ≤ n ∧
      ∀ (slot : Address) (order : ByteOrder), slot.toNat + distance < wordLimit →
        ∃ address : Address, address.toNat = slot.toNat + distance ∧
          (field.read m slot order >>= fun v => v.follow m (path.map Step.hop)) =
            leaf.read m address order := by
  induction hpath generalizing n with
  | here =>
    exact ⟨0, n, hsize, by omega, fun slot order _ => ⟨slot, rfl, bind_pure _⟩⟩
  | @step field part last step rest hpart hrest ih =>
    have hsized : part.isUnsized = false := isUnsized_of_isPath hrest hleaf
    obtain ⟨distance, width, hwidth, hle, hhop⟩ := exists_hop hpart hsized hsize
    obtain ⟨more, size, hleafsize, hle', hfollow⟩ := ih hleaf hwidth
    refine ⟨distance + more, size, hleafsize, by omega, fun slot order hend => ?_⟩
    -- the part is a field in a slot of its own, from which the rest of the path goes on
    obtain ⟨first, hfirst, hread⟩ := hhop slot order (by omega)
    obtain ⟨address, haddress, hrestread⟩ := hfollow first order (by omega)
    refine ⟨address, by omega, ?_⟩
    rw [← hrestread, ← hread, bind_assoc]
    rfl

/-! ### Composites -/

variable {p : Platform} {s : Schema} {b : Buffer} {type : TypeId} {l : Layout} {slot : Address}
  {order : ByteOrder} {bytes : Bytes} {kind : ScalarKind}

theorem isLeaf_of_plainKind? (hkind : leaf.plainKind? = some kind) : leaf.isLeaf = true := by
  rcases plainKind?_cases hkind with ⟨rfl, -⟩ | ⟨target, rfl, -⟩ <;> rfl

/-- What a view of a composite shows at the end of a path is found in its bytes, at one place for
all slots and buffers. -/
theorem exists_content (hl : s.layout p type = .ok l)
    (hpath : IsPath s (.composite type) path leaf) (hkind : leaf.plainKind? = some kind) :
    ∃ distance, ∀ (b : Buffer) (slot : Address) (order : ByteOrder) (bytes : Bytes),
      b.limit ≤ wordLimit → bytes.length = l.size → b.Holds slot.toNat bytes →
        ((Value.composite (CompositeView.ofSlot slot l order)).follow (space p s)
          (path.map Step.hop) >>= Value.content (space p s)).Yields b
            (kind.decode p order ((bytes.drop distance).take (kind.sizeOn p))) b := by
  have hsize : (space p s).fieldSize (.composite type) = .ok l.size :=
    map_eq_ok_iff.mpr ⟨l, hl, rfl⟩
  obtain ⟨distance, size, hleafsize, hle, hfollow⟩ :=
    exists_follow (m := space p s) hpath (isLeaf_of_plainKind? hkind) hsize
  cases (size_of_plainKind? hkind).symm.trans hleafsize
  change distance + kind.sizeOn p ≤ l.size at hle
  refine ⟨distance, fun b slot order bytes hlimit hlength hholds => ?_⟩
  -- a leaf has bytes, so its address is below the limit
  have hpos := kind.sizeOn_pos p
  have hend := hholds.mapped.le_limit
  obtain ⟨address, haddress, hread⟩ := hfollow slot order (by omega)
  have hview : ((composite type).read (space p s) slot order).Yields b
      (.composite (CompositeView.ofSlot slot l order)) b :=
    read_composite_yields_iff.mpr ⟨l, hl, rfl, rfl⟩
  have hcontent : (leaf.read (space p s) address order >>= Value.content (space p s)).Yields b
      (kind.decode p order ((bytes.drop distance).take (kind.sizeOn p))) b :=
    content_yields_part hkind hholds haddress (by omega)
  rw [← hread, bind_assoc] at hcontent
  exact hview.bind_iff.mp hcontent

/-- Between composites of one type, an assignment copies the bytes. -/
theorem write_composite_eq {source : CompositeView} (hl : s.layout p type = .ok source.layout)
    (slot : Address) (order : ByteOrder) :
    (composite type).write (space p s) slot (.composite source) order =
      source.readImage (space p s) >>= writeBytes slot :=
  assignFrom_composite (Schema.layout_eq_ok_iff.mp hl).name_eq slot order

/-- An assignment moves the bytes that the source had before into the slot and changes no others.
Read from the slot, the target has its origin as far behind its first byte as the source has.  It
shows the same plain values as the source did, at the ends of all paths. -/
theorem write_composite_moves {source : CompositeView} (hl : s.layout p type = .ok source.layout)
    (hlimit : b.limit ≤ wordLimit)
    (hfrom : b.Mapped source.firstByte.toNat source.layout.size)
    (hto : b.Mapped slot.toNat source.layout.size) (order : ByteOrder) :
    ∃ bytes b' target,
      (source.readImage (space p s)).Yields b bytes b ∧
      ((composite type).write (space p s) slot (.composite source) order).Yields b () b' ∧
      b'.limit = b.limit ∧ b'.Holds slot.toNat bytes ∧
      b.Keeps b' (Within slot.toNat source.layout.size) ∧
      ((composite type).read (space p s) slot source.order).Yields b' (.composite target) b' ∧
      target.address = slot.move (-source.layout.start) ∧
      ∀ path leaf, IsPath s (.composite type) path leaf → leaf.plainKind?.isSome →
        ∃ v,
          ((Value.composite source).follow (space p s) (path.map Step.hop) >>=
            Value.content (space p s)).Yields b v b ∧
          ((Value.composite target).follow (space p s) (path.map Step.hop) >>=
            Value.content (space p s)).Yields b' v b' := by
  obtain ⟨bytes, hlength, hholds⟩ := hfrom.exists_holds
  have himage : (source.readImage (space p s)).Yields b bytes b :=
    readBytes_yields_iff.mpr ⟨rfl, hlength, hholds⟩
  rw [← hlength] at hto
  have hwrite : ((composite type).write (space p s) slot (.composite source) order).Yields b ()
      (b.store slot.toNat bytes) := by
    rw [write_composite_eq hl, himage.bind_iff]
    exact writeBytes_yields_iff.mpr ⟨hto, rfl⟩
  refine ⟨bytes, b.store slot.toNat bytes, CompositeView.ofSlot slot source.layout source.order,
    himage, hwrite, limit_store hto, hto.holds_store, ?_,
    read_composite_yields_iff.mpr ⟨source.layout, hl, rfl, rfl⟩, rfl, ?_⟩
  · rw [← hlength]
    exact keeps_store hto fun _ hx => hx
  · intro path leaf hpath hplain
    obtain ⟨kind, hkind⟩ := Option.isSome_iff_exists.mp hplain
    obtain ⟨distance, hcontent⟩ := exists_content hl hpath hkind
    have hbefore := hcontent b source.firstByte source.order bytes hlimit hlength hholds
    rw [source.ofSlot_firstByte] at hbefore
    exact ⟨_, hbefore, hcontent _ slot source.order bytes (by rwa [limit_store hto]) hlength
      hto.holds_store⟩

/-- The first of the links is moved by eight bytes, over a part of itself. -/
theorem write_composite_moves_link :
    ∃ b' target,
      ((composite (.declared 1)).write (space .host linkSchema) 4111
        (.composite ⟨4104, linkLayout, .big⟩) .native).Yields linkBuffer () b' ∧
      ((composite (.declared 1)).read (space .host linkSchema) 4111 .big).Yields b'
        (.composite target) b' ∧
      target.address = 4112 ∧
      ((Value.composite target).follow (space .host linkSchema) [.member "next"] >>=
        Value.content (space .host linkSchema)).Yields b' (.word 4136) b' := by
  have hl : linkSchema.layout .host (.declared 1) = .ok linkLayout := by decide +kernel
  let source : CompositeView := ⟨4104, linkLayout, .big⟩
  have hfrom : linkBuffer.Mapped source.firstByte.toNat source.layout.size :=
    ⟨by decide, by decide, by decide⟩
  have hto : linkBuffer.Mapped (4111 : Address).toNat source.layout.size :=
    ⟨by decide, by decide, by decide⟩
  obtain ⟨bytes, b', target, -, hwrite, -, -, -, hread, haddress, hcontent⟩ :=
    write_composite_moves hl (by decide) hfrom hto .native
  refine ⟨b', target, hwrite, hread, haddress, ?_⟩
  have hmembers : linkSchema.members (.declared 1) = .ok linkLayout.members := by decide +kernel
  have hpath : IsPath linkSchema (.composite (.declared 1)) [.member "next"]
      (.pointer (.composite (.declared 1))) :=
    .step (.member hmembers (by decide)) .here
  obtain ⟨v, hbefore, hafter⟩ := hcontent _ _ hpath rfl
  have hnext : ((Value.composite ⟨4104, linkLayout, .big⟩).follow (space .host linkSchema)
      [.member "next"] >>= Value.content (space .host linkSchema)).Yields linkBuffer (.word 4136)
      linkBuffer := by
    decide +kernel
  cases (hbefore.unique hnext).1
  exact hafter

end Field

end TypedMemory
