import TypedMemory.Proofs.StringObject.Counted

/-!
# Round trips through an object with counted references

The object may be in any state: its pointer is null, or characters lie behind a header with any
capacity, length and number of references (`HoldsBlock`).  A text that is written is read back.
The number of references stays, in the old block where the text fits it and in a new one
otherwise, and the bytes that a write may change are known in both cases
(`read_back`).
-/

namespace TypedMemory

open Access StringObject

namespace CountedString

variable {p : Platform} {s : Schema} {order : ByteOrder} {a target : Address} {b b' : Buffer}
  {text : String} {capacity : Nat} {references : Int}

/-- The characters at an address belong to the object at `a`.  The header before them has a
capacity and a number of references, and there is room for as many characters and a terminator,
apart from the object itself. -/
structure HoldsBlock (b : Buffer) (p : Platform) (order : ByteOrder) (a target : Address)
    (capacity : Nat) (references : Int) : Prop where
  header_le : 3 * p.pointerSize ≤ target.toNat
  holds_capacity : b.HoldsCount p order (target.toNat - 3 * p.pointerSize) capacity
  holds_references : b.HoldsSigned p order (target.toNat - p.pointerSize) references
  mapped : b.Mapped (target.toNat - 3 * p.pointerSize) (3 * p.pointerSize + capacity + 1)
  apart : ∀ x,
    Buffer.Within (target.toNat - 3 * p.pointerSize) (3 * p.pointerSize + capacity + 1) x →
      ¬ Buffer.Within a.toNat p.pointerSize x

/-- The object at `a` points to a text with a terminator behind it, and the words before it are a
header for this text. -/
structure HoldsText (b : Buffer) (p : Platform) (order : ByteOrder) (a target : Address)
    (text : String) (capacity : Nat) (references : Int) : Prop where
  holds_pointer : b.HoldsWord p order a.toNat target
  header_le : 3 * p.pointerSize ≤ target.toNat
  holds_capacity : b.HoldsCount p order (target.toNat - 3 * p.pointerSize) capacity
  holds_length : b.HoldsCount p order (target.toNat - 2 * p.pointerSize) (Utf8.size text)
  holds_references : b.HoldsSigned p order (target.toNat - p.pointerSize) references
  size_le : Utf8.size text ≤ capacity
  holds_text : b.Holds target.toNat (withTerminator text)

section Header

variable {block : Address} (h : block.toNat + 3 * p.pointerSize < wordLimit)

include h

theorem origin_sub_capacity : (origin p block).toNat - 3 * p.pointerSize = block.toNat := by
  rw [toNat_origin h]
  omega

theorem origin_sub_length :
    (origin p block).toNat - 2 * p.pointerSize = block.toNat + p.pointerSize := by
  rw [toNat_origin h]
  omega

theorem origin_sub_references :
    (origin p block).toNat - p.pointerSize = block.toNat + 2 * p.pointerSize := by
  rw [toNat_origin h]
  omega

end Header

/-- The header before characters is the begin of a block. -/
theorem exists_block (h : 3 * p.pointerSize ≤ target.toNat) :
    ∃ block, target = origin p block ∧ block.toNat + 3 * p.pointerSize < wordLimit := by
  have hlt : target.toNat < wordLimit := target.toNat_lt
  have hblock := toNat_ofNat_of_lt (show target.toNat - 3 * p.pointerSize < wordLimit by omega)
  refine ⟨UInt64.ofNat (target.toNat - 3 * p.pointerSize), UInt64.toNat_inj.mp ?_, by omega⟩
  rw [toNat_origin (by omega)]
  omega

/-- The text in a block with a header. -/
theorem HoldsHeader.holdsText {block : Address}
    (hheader : HoldsHeader b p order block (Utf8.size text) capacity)
    (hpointer : b.HoldsWord p order a.toNat (origin p block))
    (hsigned : b.HoldsSigned p order (block.toNat + 2 * p.pointerSize) references)
    (htext : b.Holds (block.toNat + 3 * p.pointerSize) (withTerminator text))
    (hsize : Utf8.size text ≤ capacity) :
    HoldsText b p order a (origin p block) text capacity references := by
  have hinside := hheader.inside
  refine ⟨hpointer, ?_, ?_, ?_, ?_, hsize, ?_⟩
  · rw [toNat_origin hinside]
    omega
  · rw [origin_sub_capacity hinside]
    exact hheader.capacity
  · rw [origin_sub_length hinside]
    exact hheader.length
  · rw [origin_sub_references hinside]
    exact hsigned
  · rw [toNat_origin hinside]
    exact htext

theorem HoldsText.read_yields (h : HoldsText b p order a target text capacity references) :
    (read (Buffer.space p s) a order).Yields b text b := by
  obtain ⟨block, rfl, hinside⟩ := exists_block h.header_le
  have hcapacity := h.holds_capacity
  have hlength := h.holds_length
  have htext := h.holds_text
  rw [origin_sub_capacity hinside] at hcapacity
  rw [origin_sub_length hinside] at hlength
  rw [toNat_origin hinside] at htext
  exact read_block ⟨hinside, hcapacity, hlength⟩ h.holds_pointer htext

/-! ### Writing -/

/-- What is left of a write to an object that points to a block. -/
theorem HoldsBlock.write_yields_iff (hblock : HoldsBlock b p order a target capacity references)
    (hslot : b.HoldsWord p order a.toNat target) (hne : target ≠ 0) {u : Unit} :
    (write (Buffer.space p s) a text order).Yields b u b' ↔
      (if Utf8.size text ≤ capacity then fill p s (headerAt p target order) text
        else do
          let header ←
            moveToBlock (Buffer.space p s) (slotAt a order) (withTerminator text) references
          fill p s header text : Access Buffer Unit).Yields b u b' := by
  obtain ⟨block, rfl, hinside⟩ := exists_block hblock.header_le
  have hcapacity := hblock.holds_capacity
  have hsigned := hblock.holds_references
  rw [origin_sub_capacity hinside, ← toNat_capacity hinside] at hcapacity
  rw [origin_sub_references hinside, ← toNat_references hinside] at hsigned
  have hread : (readCount (Buffer.space p s) (headerAt p (origin p block) order) "capacity").Yields
      b capacity b :=
    (CompositeView.readCount_yields_iff addressOf_capacity).mpr ⟨rfl, hcapacity⟩
  have hreferences : (readReferences (Buffer.space p s) (headerAt p (origin p block) order)).Yields
      b references b :=
    readReferences_yields_iff.mpr ⟨rfl, hsigned⟩
  unfold write
  rw [(locate_yields_header hslot hne).bind_iff]
  dsimp only
  rw [hread.bind_iff, hreferences.bind_iff]
  split_ifs <;> rfl

/-- A write that stays in the block changes the length and the characters. -/
theorem HoldsBlock.kept_of_write (hblock : HoldsBlock b p order a target capacity references)
    (hslot : b.HoldsWord p order a.toNat target) (hne : target ≠ 0)
    (hfits : Utf8.size text ≤ capacity) {u : Unit}
    (hwrite : (write (Buffer.space p s) a text order).Yields b u b') :
    HoldsText b' p order a target text capacity references ∧
      b.Keeps b' (fun x =>
        Buffer.Within (target.toNat - 2 * p.pointerSize) p.pointerSize x ∨
          Buffer.Within target.toNat (Utf8.size text + 1) x) ∧
      b'.limit = b.limit ∧ b'.allocations = b.allocations := by
  rw [hblock.write_yields_iff hslot hne, if_pos hfits] at hwrite
  obtain ⟨block, rfl, hinside⟩ := exists_block hblock.header_le
  have hlimit := limit_of_fill hwrite
  obtain ⟨hlength, htext, hkeeps, halloc⟩ := fill_spec hinside hwrite
  have hpositive := p.pointerSize_pos
  have hapart := hblock.apart
  have hcapacity := hblock.holds_capacity
  have hsigned := hblock.holds_references
  rw [origin_sub_capacity hinside] at hapart hcapacity
  rw [origin_sub_references hinside] at hsigned
  rw [origin_sub_length hinside, toNat_origin hinside]
  refine ⟨HoldsHeader.holdsText ⟨hinside, ?_, hlength⟩ ?_ ?_ htext hfits, hkeeps, hlimit, halloc⟩
  · refine hkeeps.holdsCount hcapacity fun x hx => ?_
    simp only [Buffer.Within] at *
    omega
  · refine hkeeps.holdsWord hslot fun x hx hchanged => hapart x ?_ hx
    simp only [Buffer.Within] at *
    omega
  · refine hkeeps.holdsSigned hsigned fun x hx => ?_
    simp only [Buffer.Within] at *
    omega

/-- A text in a new block. -/
theorem moved_of_newBlock (hmemory : b.memory.length < offsetLimit)
    (hobject : b.Mapped a.toNat p.pointerSize) (hfits : FitsBytes true p.pointerSize references)
    {u : Unit}
    (hwrite : (do
      let header ← moveToBlock (Buffer.space p s) (slotAt a order) (withTerminator text) references
      fill p s header text : Access Buffer Unit).Yields b u b') :
    HoldsText b' p order a (origin p b.nextBlock) text (blockSize p text - 3 * p.pointerSize - 1)
        references ∧
      b.Keeps b' (Buffer.Within a.toNat p.pointerSize) ∧
      b'.allocations = b.allocations ++ [⟨b.nextBlock, blockSize p text⟩] ∧
      b.limit ≤ b.nextBlock.toNat ∧
      (origin p b.nextBlock).toNat = b.nextBlock.toNat + 3 * p.pointerSize := by
  have hpointer : p.pointerSize ≤ 8 := p.pointerSize_le
  have hsize := le_blockSize p text
  -- the characters can be written, so the block does not go around the address space
  have hcontent := (mapped_of_newBlock hfits hwrite).1.base_le
  rw [Buffer.base_grown] at hcontent
  have hinside := Buffer.nextBlock_add_lt hmemory (show 3 * p.pointerSize ≤ 24 by omega) hcontent
  obtain ⟨hbehind, hslot, hheader, hsigned, htext, hkeeps, halloc⟩ :=
    newBlock_spec hobject hinside hfits hwrite
  exact ⟨hheader.holdsText hslot hsigned htext (by omega), hkeeps, halloc, hbehind,
    toNat_origin hheader.inside⟩

/-- Whatever the object pointed to, a text that is written is read back, with a terminator behind
it, a length and a capacity in its header, and the old number of references.  A text that fits the
block changes nothing there but the length and as many bytes as it has, and the terminator.  Any
other text goes to a new block behind the memory, and of the memory only the pointer changes.

The memory is a list of bytes of a process, so it has less than `offsetLimit` of them. -/
theorem read_back (hmemory : b.memory.length < offsetLimit)
    (hslot : b.HoldsWord p order a.toNat target)
    (hblock : target ≠ 0 → HoldsBlock b p order a target capacity references)
    (hnull : target = 0 → references = 0)
    (hwrite : (write (Buffer.space p s) a text order).Yields b () b') :
    (read (Buffer.space p s) a order).Yields b' text b' ∧
    ∃ target' capacity', HoldsText b' p order a target' text capacity' references ∧
      if target ≠ 0 ∧ Utf8.size text ≤ capacity then
        target' = target ∧ capacity' = capacity ∧
          b.Keeps b' (fun x =>
            Buffer.Within (target.toNat - 2 * p.pointerSize) p.pointerSize x ∨
              Buffer.Within target.toNat (Utf8.size text + 1) x) ∧
          b'.limit = b.limit ∧ b'.allocations = b.allocations
      else
        b.Keeps b' (Buffer.Within a.toNat p.pointerSize) ∧
          ∃ new : Allocation, b'.allocations = b.allocations ++ [new] ∧
            b.limit ≤ new.address.toNat ∧
            target'.toNat = new.address.toNat + 3 * p.pointerSize := by
  by_cases hkept : target ≠ 0 ∧ Utf8.size text ≤ capacity
  · obtain ⟨hne, hfits⟩ := hkept
    obtain ⟨htext, hrest⟩ := (hblock hne).kept_of_write hslot hne hfits hwrite
    refine ⟨htext.read_yields, target, capacity, htext, ?_⟩
    rw [if_pos ⟨hne, hfits⟩]
    exact ⟨rfl, rfl, hrest⟩
  · have hnew : FitsBytes true p.pointerSize references ∧ (do
        let header ←
          moveToBlock (Buffer.space p s) (slotAt a order) (withTerminator text) references
        fill p s header text : Access Buffer Unit).Yields b () b' := by
      by_cases hne : target = 0
      · rw [hnull hne]
        rw [hne] at hslot
        unfold write at hwrite
        rw [(locate_yields_null hslot).bind_iff] at hwrite
        exact ⟨bmod_eq_self_iff.mp Int.zero_bmod, hwrite⟩
      · have hlarge : ¬ Utf8.size text ≤ capacity := fun hfits => hkept ⟨hne, hfits⟩
        rw [(hblock hne).write_yields_iff hslot hne, if_neg hlarge] at hwrite
        exact ⟨(hblock hne).holds_references.fits, hwrite⟩
    obtain ⟨htext, hkeeps, halloc, hbehind, horigin⟩ :=
      moved_of_newBlock hmemory hslot.mapped hnew.1 hnew.2
    refine ⟨htext.read_yields, _, _, htext, ?_⟩
    rw [if_neg hkept]
    exact ⟨hkeeps, _, halloc, hbehind, horigin⟩

/-- An object at 4096 with five characters at 4128, of which there are no references left: the
number of them has become negative. -/
def droppedBuffer : Buffer :=
  ⟨4096,
    [0, 0, 0, 0, 0, 0, 16, 32] ++ [0, 0, 0, 0, 0, 0, 0, 5] ++ [0, 0, 0, 0, 0, 0, 0, 2] ++
      List.replicate 8 255 ++ [104, 105, 0, 0, 0, 0], []⟩

theorem holdsBlock_dropped : HoldsBlock droppedBuffer .host .big 4096 4128 5 (-1) := by
  have hcapacity : droppedBuffer.HoldsWord .host .big (4104 : Address).toNat 5 :=
    (Buffer.readWord_yields_iff.mp
      (by decide +kernel : ((Buffer.port .host).readWord 4104 .big).Yields droppedBuffer 5
        droppedBuffer)).2
  have hreferences : droppedBuffer.HoldsSigned .host .big (4120 : Address).toNat (-1) :=
    (Buffer.readSignedWord_yields_iff.mp
      (by decide +kernel : ((Buffer.port .host).readSignedWord 4120 .big).Yields droppedBuffer (-1)
        droppedBuffer)).2
  refine ⟨by decide, hcapacity.count, hreferences, ⟨by decide, by decide, by decide⟩, ?_⟩
  intro x hx hslot
  change 4104 ≤ x ∧ x < 4104 + 30 at hx
  change 4096 ≤ x ∧ x < 4096 + 8 at hslot
  omega

/-- A text that fits the old block, and one that is a character too long for it. -/
theorem read_back_dropped :
    (∃ b', (write (Buffer.space .host .empty) 4096 "hello" .big).Yields droppedBuffer () b' ∧
      (read (Buffer.space .host .empty) 4096 .big).Yields b' "hello" b' ∧
      ∃ target capacity, HoldsText b' .host .big 4096 target "hello" capacity (-1)) ∧
    ∃ b', (write (Buffer.space .host .empty) 4096 "hello!" .big).Yields droppedBuffer () b' ∧
      (read (Buffer.space .host .empty) 4096 .big).Yields b' "hello!" b' ∧
      ∃ target capacity, HoldsText b' .host .big 4096 target "hello!" capacity (-1) := by
  have hslot : droppedBuffer.HoldsWord .host .big (4096 : Address).toNat 4128 :=
    (Buffer.readWord_yields_iff.mp
      (by decide +kernel : ((Buffer.port .host).readWord 4096 .big).Yields droppedBuffer 4128
        droppedBuffer)).2
  have hshort : (write (Buffer.space .host .empty) 4096 "hello" .big).Yields droppedBuffer ()
      (eval (write (Buffer.space .host .empty) 4096 "hello" .big) droppedBuffer).2 := by
    decide +kernel
  have hlong : (write (Buffer.space .host .empty) 4096 "hello!" .big).Yields droppedBuffer ()
      (eval (write (Buffer.space .host .empty) 4096 "hello!" .big) droppedBuffer).2 := by
    decide +kernel
  obtain ⟨hread, target, capacity, htext, -⟩ :=
    read_back (by decide) hslot (fun _ => holdsBlock_dropped) (by decide) hshort
  obtain ⟨hread', target', capacity', htext', -⟩ :=
    read_back (by decide) hslot (fun _ => holdsBlock_dropped) (by decide) hlong
  exact ⟨⟨_, hshort, hread, target, capacity, htext⟩, _, hlong, hread', target', capacity', htext'⟩

end CountedString

end TypedMemory
