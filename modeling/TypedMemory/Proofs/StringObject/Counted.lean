import TypedMemory.Proofs.StringObject.Content
import TypedMemory.Proofs.StringObject.Layouts

/-!
# Strings with counted references

The object is a pointer to characters, and three words before these are the header:
capacity, length and number of references.  So a block of a string begins with the
header, and `origin` is where its characters begin.  `CountedString.read` follows the
pointer (`read_block`).  `CountedString.write` fills the block that there is or a new
one (`Written`, `written_of_write`).
-/

namespace TypedMemory

open StringObject

namespace CountedString

variable {p : Platform} {s : Schema} {order : ByteOrder} {a block : Address} {b b' : Buffer}
  {text : String}

/-! ### The parts of the object -/

/-- The pointer of the object at an address. -/
abbrev slotAt (a : Address) (order : ByteOrder) : PointerSlot :=
  ⟨a, .composite (.builtin .countedStringHeader), order⟩

/-- The header before the characters at an address. -/
abbrev headerAt (p : Platform) (origin : Address) (order : ByteOrder) : CompositeView :=
  ⟨origin, headerLayout p, order⟩

/-- The characters of a block. -/
def origin (p : Platform) (block : Address) : Address :=
  block + UInt64.ofNat (3 * p.pointerSize)

theorem toNat_origin (h : block.toNat + 3 * p.pointerSize < wordLimit) :
    (origin p block).toNat = block.toNat + 3 * p.pointerSize := by
  rw [origin, UInt64.toNat_add, toNat_ofNat_of_lt (by omega)]
  exact Nat.mod_eq_of_lt h

theorem targetAddress_yields_iff {target : Address} :
    ((slotAt a order).targetAddress (Buffer.space p s)).Yields b target b' ↔
      b' = b ∧ b.HoldsWord p order a.toNat target :=
  Buffer.readWord_yields_iff

section Locate

-- any memory in which the pointer can be read
variable {σ : Type} {m : Space σ} {st : σ} {target : Address}
  (h : (m.readWord a order).Yields st target st)

theorem addressOf_pointer :
    (CompositeView.mk a (countedLayout p) order).addressOf "pointer" = .ok a := by
  change Except.ok (a.move 0) = .ok a
  rw [Address.move_zero]

theorem layout_countedString_eq (m : Space σ) :
    m.layout (.builtin .countedString) = .ok (countedLayout m.platform) :=
  m.schema.layout_countedString m.platform

theorem layout_countedStringHeader_eq (m : Space σ) :
    m.layout (.builtin .countedStringHeader) = .ok (headerLayout m.platform) :=
  m.schema.layout_countedStringHeader m.platform

theorem targetSlot_eq (m : Space σ) (target : Address) :
    (slotAt a order).targetSlot m target =
      .ok (target.move (headerLayout m.platform).start) := by
  simp only [PointerSlot.targetSlot, layout_countedStringHeader_eq]
  rfl

include h

theorem isNull_yields : ((slotAt a order).isNull m).Yields st (target == 0) st := by
  have htarget : ((slotAt a order).targetAddress m).Yields st target st := h
  unfold PointerSlot.isNull
  rw [htarget.bind_iff]
  exact Access.yields_pure.mpr ⟨rfl, rfl⟩

theorem follow_yields (hne : target ≠ 0) :
    ((slotAt a order).follow m).Yields st target st := by
  have htarget : ((slotAt a order).targetAddress m).Yields st target st := h
  unfold PointerSlot.follow
  rw [htarget.bind_iff, if_neg hne]
  exact Access.yields_pure.mpr ⟨rfl, rfl⟩

/-- The object of a pointer that can be read. -/
theorem locate_yields :
    (locate m a order).Yields st
      ⟨slotAt a order, if target = 0 then none else some (headerAt m.platform target order)⟩
      st := by
  unfold locate
  rw [layout_countedString_eq, Access.liftM_ok_bind]
  dsimp only
  rw [addressOf_pointer, Access.liftM_ok_bind, (isNull_yields h).bind_iff]
  by_cases hnull : target = 0
  · rw [hnull, if_pos rfl]
    exact Access.yields_pure.mpr ⟨rfl, rfl⟩
  · have hfalse : (target == 0) = false := beq_eq_false_iff_ne.mpr hnull
    rw [hfalse, if_neg Bool.false_ne_true, if_neg hnull, (follow_yields h hnull).bind_iff,
      targetSlot_eq, Access.liftM_ok_bind, layout_countedStringHeader_eq, Access.liftM_ok_bind,
      CompositeView.ofSlot, Address.move_move_neg]
    exact Access.yields_pure.mpr ⟨rfl, rfl⟩

end Locate

/-- The object of a null pointer. -/
theorem locate_yields_null (h : b.HoldsWord p order a.toNat 0) :
    (locate (Buffer.space p s) a order).Yields b ⟨slotAt a order, none⟩ b := by
  have hread : ((Buffer.space p s).readWord a order).Yields b 0 b :=
    Buffer.readWord_yields_iff.mpr ⟨rfl, h⟩
  have hlocate := locate_yields hread
  rwa [if_pos rfl] at hlocate

/-- The object of a pointer to characters. -/
theorem locate_yields_header {target : Address} (h : b.HoldsWord p order a.toNat target)
    (hne : target ≠ 0) :
    (locate (Buffer.space p s) a order).Yields b
      ⟨slotAt a order, some (headerAt p target order)⟩ b := by
  have hread : ((Buffer.space p s).readWord a order).Yields b target b :=
    Buffer.readWord_yields_iff.mpr ⟨rfl, h⟩
  have hlocate := locate_yields hread
  rwa [if_neg hne] at hlocate

/-! ### The header -/

theorem addressOf_capacity {target : Address} :
    (headerAt p target order).addressOf "capacity" =
      .ok (target.move (-((3 * p.pointerSize : Nat) : Int))) := rfl

theorem addressOf_length {target : Address} :
    (headerAt p target order).addressOf "length" =
      .ok (target.move (-((2 * p.pointerSize : Nat) : Int))) := rfl

theorem addressOf_references {target : Address} :
    (headerAt p target order).addressOf "ref_count" =
      .ok (target.move (-(p.pointerSize : Int))) := rfl

theorem addressOf_content {target : Address} :
    (headerAt p target order).addressOf "content" = .ok target := by
  change Except.ok (target.move 0) = .ok target
  rw [Address.move_zero]

section Members

variable (h : block.toNat + 3 * p.pointerSize < wordLimit)

include h

theorem toNat_capacity :
    ((origin p block).move (-((3 * p.pointerSize : Nat) : Int))).toNat = block.toNat := by
  have horigin := toNat_origin h
  rw [Address.toNat_move_neg (by omega)]
  omega

theorem toNat_length :
    ((origin p block).move (-((2 * p.pointerSize : Nat) : Int))).toNat =
      block.toNat + p.pointerSize := by
  have horigin := toNat_origin h
  rw [Address.toNat_move_neg (by omega)]
  omega

theorem toNat_references :
    ((origin p block).move (-(p.pointerSize : Int))).toNat =
      block.toNat + 2 * p.pointerSize := by
  have horigin := toNat_origin h
  rw [Address.toNat_move_neg (by omega)]
  omega

theorem origin_ne_zero : origin p block ≠ 0 := by
  have horigin := toNat_origin h
  have hpointer := p.pointerSize_pos
  intro hzero
  rw [hzero] at horigin
  have : (0 : Address).toNat = 0 := rfl
  omega

end Members

/-- The header at the begin of a block. -/
structure HoldsHeader (b : Buffer) (p : Platform) (order : ByteOrder) (block : Address)
    (length capacity : Nat) : Prop where
  inside : block.toNat + 3 * p.pointerSize < wordLimit
  capacity : b.HoldsCount p order block.toNat capacity
  length : b.HoldsCount p order (block.toNat + p.pointerSize) length

theorem HoldsHeader.keeps {changed : Nat → Prop} {length capacity : Nat}
    (h : HoldsHeader b p order block length capacity) (hkeeps : b.Keeps b' changed)
    (hout : ∀ x, Buffer.Within block.toNat (2 * p.pointerSize) x → ¬ changed x) :
    HoldsHeader b' p order block length capacity := by
  refine ⟨h.inside, hkeeps.holdsCount h.capacity fun x hx => hout x ?_,
    hkeeps.holdsCount h.length fun x hx => hout x ?_⟩
  all_goals
    simp only [Buffer.Within] at *
    omega

/-! ### Reading -/

theorem read_null (h : b.HoldsWord p order a.toNat 0) :
    (read (Buffer.space p s) a order).Yields b "" b := by
  unfold read
  rw [(locate_yields_null h).bind_iff]
  exact Access.yields_pure.mpr ⟨rfl, rfl⟩

/-- The characters of a block. -/
theorem read_block {capacity : Nat}
    (hheader : HoldsHeader b p order block (Utf8.size text) capacity)
    (hpointer : b.HoldsWord p order a.toNat (origin p block))
    (htext : b.Holds (block.toNat + 3 * p.pointerSize) (withTerminator text)) :
    (read (Buffer.space p s) a order).Yields b text b := by
  have hlength : (readCount (Buffer.space p s) (headerAt p (origin p block) order) "length").Yields
      b (Utf8.size text) b :=
    (CompositeView.readCount_yields_iff addressOf_length).mpr ⟨rfl, by
      rw [toNat_length hheader.inside]
      exact hheader.length⟩
  rw [← toNat_origin hheader.inside] at htext
  unfold read
  rw [(locate_yields_header hpointer (origin_ne_zero hheader.inside)).bind_iff]
  dsimp only
  rw [hlength.bind_iff, (Access.yields_liftM.mpr ⟨addressOf_content, rfl⟩).bind_iff,
    Buffer.readBytes_space, (readBytes_encode htext).bind_iff, contentOrEmpty_encode]
  exact Access.yields_pure.mpr ⟨rfl, rfl⟩

/-! ### Writing -/

/-- The end of a write: setting the length and the characters. -/
def fill (p : Platform) (s : Schema) (header : CompositeView) (text : String) :
    Access Buffer Unit := do
  writeCount (Buffer.space p s) header "length" (Utf8.size text)
  let content ← liftM (header.addressOf "content")
  (Buffer.space p s).writeBytes content (withTerminator text)

theorem fill_yields {target : Address} {u : Unit}
    (hfill : (fill p s (headerAt p target order) text).Yields b u b') :
    (UInt64.ofNat (Utf8.size text)).toNat < 256 ^ p.pointerSize ∧
    b.Mapped (target.move (-((2 * p.pointerSize : Nat) : Int))).toNat p.pointerSize ∧
    b.Mapped target.toNat (Utf8.size text + 1) ∧
    b' = (b.store (target.move (-((2 * p.pointerSize : Nat) : Int))).toNat
      (Buffer.wordBytes p order (UInt64.ofNat (Utf8.size text)))).store target.toNat
        (withTerminator text) := by
  obtain ⟨_, b₁, hset, hrest⟩ := Access.yields_bind.mp hfill
  obtain ⟨hsize, hlength, rfl⟩ := (CompositeView.writeCount_yields_iff addressOf_length).mp hset
  rw [(Access.yields_liftM.mpr ⟨addressOf_content, rfl⟩).bind_iff] at hrest
  obtain ⟨hm, rfl⟩ := Buffer.writeBytes_yields_iff.mp hrest
  rw [length_withTerminator, Buffer.mapped_store (by rwa [Buffer.length_wordBytes])] at hm
  exact ⟨hsize, hlength, hm, rfl⟩

theorem limit_of_fill {target : Address} {u : Unit}
    (hfill : (fill p s (headerAt p target order) text).Yields b u b') : b'.limit = b.limit := by
  obtain ⟨-, hlength, hm, rfl⟩ := fill_yields hfill
  have hfirst : b.Keeps (Buffer.store _ _ (Buffer.wordBytes p order _)) _ :=
    Buffer.keeps_storeWord hlength (UInt64.ofNat (Utf8.size text))
  rw [Buffer.limit_store (by rw [length_withTerminator]; exact hfirst.mapped hm),
    Buffer.limit_store (by rwa [Buffer.length_wordBytes])]

/-- The number of references is the signed word directly before the characters. -/
theorem readReferences_yields_iff {target : Address} {references : Int} :
    (readReferences (Buffer.space p s) (headerAt p target order)).Yields b references b' ↔
      b' = b ∧ b.HoldsSigned p order (target.move (-(p.pointerSize : Int))).toNat references := by
  unfold readReferences
  rw [addressOf_references, Access.liftM_ok_bind]
  exact Buffer.readSignedWord_yields_iff

theorem writeReferences_yields_iff {target : Address} {references : Int}
    (hfits : FitsBytes true widestScalar references) {u : Unit} :
    (writeReferences (Buffer.space p s) (headerAt p target order) references).Yields b u b' ↔
      FitsBytes true p.pointerSize references ∧
        b.Mapped (target.move (-(p.pointerSize : Int))).toNat p.pointerSize ∧
        b' = b.store (target.move (-(p.pointerSize : Int))).toNat
          (Buffer.wordBytes p order (UInt64.ofInt references)) := by
  unfold writeReferences
  rw [addressOf_references, Access.liftM_ok_bind]
  exact Buffer.writeSignedWord_yields_iff hfits

/-- Filling a block. -/
theorem fill_spec (h : block.toNat + 3 * p.pointerSize < wordLimit) {u : Unit}
    (hfill : (fill p s (headerAt p (origin p block) order) text).Yields b u b') :
    b'.HoldsCount p order (block.toNat + p.pointerSize) (Utf8.size text) ∧
    b'.Holds (block.toNat + 3 * p.pointerSize) (withTerminator text) ∧
    b.Keeps b' (fun x => Buffer.Within (block.toNat + p.pointerSize) p.pointerSize x ∨
      Buffer.Within (block.toNat + 3 * p.pointerSize) (Utf8.size text + 1) x) ∧
    b'.allocations = b.allocations := by
  obtain ⟨hsize, hlength, hm, rfl⟩ := fill_yields hfill
  rw [toNat_origin h] at hm ⊢
  rw [toNat_length h] at hlength ⊢
  have hpointer := p.pointerSize_pos
  have hfirst : b.Keeps (Buffer.store _ _ (Buffer.wordBytes p order _)) _ :=
    Buffer.keeps_storeWord hlength (UInt64.ofNat (Utf8.size text))
  have hm₁ := hfirst.mapped hm
  have hsecond := Buffer.keeps_storeText hm₁
  have hlt := Buffer.size_lt_of_mapped hm
  refine ⟨?_, Buffer.holds_storeText hm₁, ?_, rfl⟩
  · refine hsecond.holdsCount (hlength.holdsCount_store (by omega) hsize) fun x hx => ?_
    simp only [Buffer.Within] at *
    omega
  · exact (hfirst.mono fun x hx => Or.inl hx).trans (hsecond.mono fun x hx => Or.inr hx)

/-- The size of a new block for a text. -/
def blockSize (p : Platform) (text : String) : Nat :=
  powerOfTwo (Utf8.size text + 1 + 3 * p.pointerSize)

theorem le_blockSize (p : Platform) (text : String) :
    Utf8.size text + 1 + 3 * p.pointerSize ≤ blockSize p text :=
  le_powerOfTwo _

theorem start_headerLayout : (headerLayout p).start.natAbs = 3 * p.pointerSize := by
  rw [headerLayout, Int.natAbs_neg, Int.natAbs_natCast]

/-- The stores into a new block. -/
def furnish (p : Platform) (s : Schema) (header : CompositeView) (capacity : Nat)
    (references : Int) (text : String) : Access Buffer Unit := do
  writeCount (Buffer.space p s) header "capacity" capacity
  writeReferences (Buffer.space p s) header references
  fill p s header text

/-- A text in a new block: the pointer is stored before the block is. -/
theorem newBlock_eq (references : Int) :
    (do
      let header ← moveToBlock (Buffer.space p s) (slotAt a order) (withTerminator text) references
      fill p s header text : Access Buffer Unit) = (do
      let block ← Buffer.allocate (blockSize p text)
      (Buffer.port p).writeWord a (origin p block) order
      furnish p s (headerAt p (origin p block) order)
        (blockSize p text - 3 * p.pointerSize - 1) references text) := by
  unfold moveToBlock furnish
  rw [Buffer.layout_space, Schema.layout_countedStringHeader, Access.liftM_ok_bind]
  dsimp only
  rw [start_headerLayout, length_withTerminator, ← blockSize]
  simp only [bind_assoc, pure_bind]
  rfl

/-- The characters of the text fit where they are stored, and the buffer gets no longer. -/
theorem mapped_of_furnish {target : Address} {capacity : Nat} {references : Int}
    (hreferences : FitsBytes true p.pointerSize references) {u : Unit}
    (hfurnish : (furnish p s (headerAt p target order) capacity references text).Yields b u b') :
    b.Mapped target.toNat (Utf8.size text + 1) ∧ b'.limit = b.limit := by
  unfold furnish at hfurnish
  obtain ⟨_, b₁, hcount, hrest⟩ := Access.yields_bind.mp hfurnish
  obtain ⟨-, hcm, rfl⟩ := (CompositeView.writeCount_yields_iff addressOf_capacity).mp hcount
  obtain ⟨_, b₂, hset, hfill⟩ := Access.yields_bind.mp hrest
  obtain ⟨-, hrm, rfl⟩ :=
    (writeReferences_yields_iff (hreferences.mono p.pointerSize_le)).mp hset
  obtain ⟨-, -, hm, -⟩ := fill_yields hfill
  have hend := limit_of_fill hfill
  rw [Buffer.mapped_store (by rwa [Buffer.length_wordBytes]),
    Buffer.mapped_store (by rwa [Buffer.length_wordBytes])] at hm
  rw [Buffer.limit_store (by rwa [Buffer.length_wordBytes]),
    Buffer.limit_store (by rwa [Buffer.length_wordBytes])] at hend
  exact ⟨hm, hend⟩

/-- Furnishing a block gives it a header and the characters of the text. -/
theorem furnish_spec (h : block.toNat + 3 * p.pointerSize < wordLimit) {capacity : Nat}
    (hcapacity : capacity < wordLimit) {references : Int}
    (hreferences : FitsBytes true p.pointerSize references) {u : Unit}
    (hfurnish : (furnish p s (headerAt p (origin p block) order) capacity references text).Yields
      b u b') :
    HoldsHeader b' p order block (Utf8.size text) capacity ∧
    b'.HoldsSigned p order (block.toNat + 2 * p.pointerSize) references ∧
    b'.Holds (block.toNat + 3 * p.pointerSize) (withTerminator text) ∧
    b.Keeps b' (Buffer.Within block.toNat (3 * p.pointerSize + Utf8.size text + 1)) ∧
    b'.allocations = b.allocations := by
  unfold furnish at hfurnish
  obtain ⟨_, b₁, hcount, hrest⟩ := Access.yields_bind.mp hfurnish
  obtain ⟨hfits, hcm, rfl⟩ := (CompositeView.writeCount_yields_iff addressOf_capacity).mp hcount
  obtain ⟨_, b₂, hset, hfill⟩ := Access.yields_bind.mp hrest
  obtain ⟨-, hrm, rfl⟩ :=
    (writeReferences_yields_iff (hreferences.mono p.pointerSize_le)).mp hset
  rw [toNat_capacity h] at hcm hrm hfill
  rw [toNat_references h] at hrm hfill
  have hfirst : b.Keeps (Buffer.store _ _ (Buffer.wordBytes p order _)) _ :=
    Buffer.keeps_storeWord hcm (UInt64.ofNat capacity)
  have hsecond : Buffer.Keeps _ (Buffer.store _ _ (Buffer.wordBytes p order _)) _ :=
    Buffer.keeps_storeWord hrm (UInt64.ofInt references)
  obtain ⟨hlength, htext, hthird, halloc⟩ := fill_spec h hfill
  have hpositive := p.pointerSize_pos
  refine ⟨⟨h, ?_, hlength⟩, ?_, htext, ?_, halloc⟩
  · refine hthird.holdsCount (hsecond.holdsCount (hcm.holdsCount_store hcapacity hfits) ?_) ?_
    all_goals
      intro x hx
      simp only [Buffer.Within] at *
      omega
  · refine hthird.holdsSigned (hrm.holdsSigned_store hreferences) fun x hx => ?_
    simp only [Buffer.Within] at *
    omega
  · refine ((hfirst.mono ?_).trans (hsecond.mono ?_)).trans (hthird.mono ?_)
    all_goals
      intro x hx
      simp only [Buffer.Within] at *
      omega

/-- What is left of storing a text in a new block: the object points to the block, and this is
furnished. -/
theorem newBlock_yields {references : Int} {u : Unit}
    (hwrite : (do
      let header ← moveToBlock (Buffer.space p s) (slotAt a order) (withTerminator text) references
      fill p s header text : Access Buffer Unit).Yields b u b') :
    (origin p b.nextBlock).toNat < 256 ^ p.pointerSize ∧
    (b.grown (blockSize p text)).Mapped a.toNat p.pointerSize ∧
    (furnish p s (headerAt p (origin p b.nextBlock) order)
      (blockSize p text - 3 * p.pointerSize - 1) references text).Yields
      ((b.grown (blockSize p text)).store a.toNat
        (Buffer.wordBytes p order (origin p b.nextBlock))) u b' := by
  rw [newBlock_eq] at hwrite
  obtain ⟨_, b₁, hallocate, hrest⟩ := Access.yields_bind.mp hwrite
  obtain ⟨-, rfl, rfl⟩ := Buffer.allocate_yields_iff.mp hallocate
  obtain ⟨_, b₂, hset, hfurnish⟩ := Access.yields_bind.mp hrest
  obtain ⟨hpointer, hpm, rfl⟩ := Buffer.writeWord_yields_iff.mp hset
  exact ⟨hpointer, hpm, hfurnish⟩

/-- The characters fit the new block, and it ends the buffer. -/
theorem mapped_of_newBlock {references : Int}
    (hreferences : FitsBytes true p.pointerSize references) {u : Unit}
    (hwrite : (do
      let header ← moveToBlock (Buffer.space p s) (slotAt a order) (withTerminator text) references
      fill p s header text : Access Buffer Unit).Yields b u b') :
    (b.grown (blockSize p text)).Mapped (origin p b.nextBlock).toNat (Utf8.size text + 1) ∧
    b'.limit = (b.grown (blockSize p text)).limit := by
  obtain ⟨-, hpm, hfurnish⟩ := newBlock_yields hwrite
  obtain ⟨hm, hlimit⟩ := mapped_of_furnish hreferences hfurnish
  rw [Buffer.mapped_store (by rwa [Buffer.length_wordBytes])] at hm
  rw [Buffer.limit_store (by rwa [Buffer.length_wordBytes])] at hlimit
  exact ⟨hm, hlimit⟩

/-- A text in a new block, of which the header ends before the end of the address space. -/
theorem newBlock_spec (hobject : b.Mapped a.toNat p.pointerSize)
    (hinside : b.base.toNat + roundUp b.memory.length blockAlignment + 3 * p.pointerSize <
      wordLimit)
    {references : Int} (hreferences : FitsBytes true p.pointerSize references) {u : Unit}
    (hwrite : (do
      let header ← moveToBlock (Buffer.space p s) (slotAt a order) (withTerminator text) references
      fill p s header text : Access Buffer Unit).Yields b u b') :
    b.limit ≤ b.nextBlock.toNat ∧
    b'.HoldsWord p order a.toNat (origin p b.nextBlock) ∧
    HoldsHeader b' p order b.nextBlock (Utf8.size text)
      (blockSize p text - 3 * p.pointerSize - 1) ∧
    b'.HoldsSigned p order (b.nextBlock.toNat + 2 * p.pointerSize) references ∧
    b'.Holds (b.nextBlock.toNat + 3 * p.pointerSize) (withTerminator text) ∧
    b.Keeps b' (Buffer.Within a.toNat p.pointerSize) ∧
    b'.allocations = b.allocations ++ [⟨b.nextBlock, blockSize p text⟩] := by
  have hlow := le_roundUp b.memory.length blockAlignment
  have hnext := Buffer.toNat_nextBlock_of_lt (b := b) (by omega)
  have hbehind : b.limit ≤ b.nextBlock.toNat := by
    rw [hnext, Buffer.limit]
    omega
  rw [← hnext] at hinside
  have hpositive := p.pointerSize_pos
  have hcapacity : blockSize p text - 3 * p.pointerSize - 1 < wordLimit := by
    have hroom := (mapped_of_newBlock hreferences hwrite).1.inside
    rw [toNat_origin hinside, Buffer.base_grown, hnext] at hroom
    have hblock : blockSize p text ≤ 2 ^ 64 :=
      (powerOfTwo_le_iff _ 64).mpr (show _ ≤ wordLimit by omega)
    change blockSize p text ≤ wordLimit at hblock
    omega
  obtain ⟨hpointer, hpm, hfurnish⟩ := newBlock_yields hwrite
  obtain ⟨hheader, hsigned, htext, hsecond, halloc⟩ :=
    furnish_spec hinside hcapacity hreferences hfurnish
  have hfirst : (b.grown (blockSize p text)).Keeps (Buffer.store _ _ (Buffer.wordBytes p order _))
      _ := Buffer.keeps_storeWord hpm (origin p b.nextBlock)
  have hend := hobject.le_limit
  refine ⟨hbehind, ?_, hheader, hsigned, htext, ?_, halloc⟩
  · refine hsecond.holdsWord (hpm.holdsWord_store hpointer) fun x hx => ?_
    simp only [Buffer.Within] at *
    omega
  · have hall : b.Keeps b' fun x => Buffer.Within a.toNat p.pointerSize x ∨ b.limit ≤ x :=
      ((Buffer.keeps_grown b _ _).trans (hfirst.mono fun x hx => Or.inl hx)).trans
        (hsecond.mono fun x hx => Or.inr (hbehind.trans hx.1))
    refine hall.of_lt_limit fun x hx hchanged => ?_
    rcases hchanged with hchanged | hchanged
    · exact hchanged
    · omega

/-! ### What a write leaves -/

/-- The buffer `b'` after a text was written to an object of `b`.  The old block, if there is
one, has room for so many characters. -/
inductive Written (b b' : Buffer) (p : Platform) (order : ByteOrder) (a : Address) (text : String)
    (old : Option (Address × Nat)) : Prop
  | kept (block : Address) (capacity : Nat) (hold : old = some (block, capacity))
      (hfits : Utf8.size text ≤ capacity)
      (hheader : HoldsHeader b' p order block (Utf8.size text) capacity)
      (hpointer : b'.HoldsWord p order a.toNat (origin p block))
      (htext : b'.Holds (block.toNat + 3 * p.pointerSize) (withTerminator text))
      (hkeeps : b.Keeps b' (Buffer.Within block.toNat (3 * p.pointerSize + capacity + 1)))
      (halloc : b'.allocations = b.allocations)
  | moved (hlimit : b.limit ≤ b.nextBlock.toNat)
      (hlimit' : b'.limit = b.nextBlock.toNat + blockSize p text)
      (hheader : HoldsHeader b' p order b.nextBlock (Utf8.size text)
        (blockSize p text - 3 * p.pointerSize - 1))
      (hpointer : b'.HoldsWord p order a.toNat (origin p b.nextBlock))
      (htext : b'.Holds (b.nextBlock.toNat + 3 * p.pointerSize) (withTerminator text))
      (hkeeps : b.Keeps b' (Buffer.Within a.toNat p.pointerSize))
      (halloc : b'.allocations = b.allocations ++ [⟨b.nextBlock, blockSize p text⟩])

/-- A text in a new block. -/
theorem written_moved (hobject : b.Mapped a.toNat p.pointerSize) (hlimit : b'.limit ≤ wordLimit)
    {references : Int} (hreferences : FitsBytes true p.pointerSize references) {u : Unit}
    (old : Option (Address × Nat))
    (hwrite : (do
      let header ← moveToBlock (Buffer.space p s) (slotAt a order) (withTerminator text) references
      fill p s header text : Access Buffer Unit).Yields b u b') :
    Written b b' p order a text old := by
  obtain ⟨-, hlimit'⟩ := mapped_of_newBlock hreferences hwrite
  have hsize := le_blockSize p text
  rw [Buffer.limit_grown] at hlimit'
  have hnext := Buffer.toNat_nextBlock_of_lt (b := b) (by omega)
  obtain ⟨hbehind, hpointer, hheader, -, htext, hkeeps, halloc⟩ :=
    newBlock_spec hobject (by omega) hreferences hwrite
  exact Written.moved hbehind (by rw [hlimit', hnext]) hheader hpointer htext hkeeps halloc

/-- A write to an object with a null pointer. -/
theorem written_of_null (hobject : b.Mapped a.toNat p.pointerSize) (hlimit : b'.limit ≤ wordLimit)
    (hnull : b.HoldsWord p order a.toNat 0) {u : Unit}
    (hwrite : (write (Buffer.space p s) a text order).Yields b u b') :
    Written b b' p order a text none := by
  unfold write at hwrite
  rw [(locate_yields_null hnull).bind_iff] at hwrite
  exact written_moved hobject hlimit (bmod_eq_self_iff.mp Int.zero_bmod) none hwrite

/-- A write to an object that has a block. -/
theorem written_of_block (hobject : b.Mapped a.toNat p.pointerSize) (hlimit : b'.limit ≤ wordLimit)
    {length capacity : Nat} (hheader : HoldsHeader b p order block length capacity)
    (hpointer : b.HoldsWord p order a.toNat (origin p block))
    (hapart : block.toNat + (3 * p.pointerSize + capacity + 1) ≤ a.toNat ∨
      a.toNat + p.pointerSize ≤ block.toNat) {u : Unit}
    (hwrite : (write (Buffer.space p s) a text order).Yields b u b') :
    Written b b' p order a text (some (block, capacity)) := by
  have hinside := hheader.inside
  have hread : (readCount (Buffer.space p s) (headerAt p (origin p block) order) "capacity").Yields
      b capacity b :=
    (CompositeView.readCount_yields_iff addressOf_capacity).mpr ⟨rfl, by
      rw [toNat_capacity hinside]
      exact hheader.capacity⟩
  unfold write at hwrite
  rw [(locate_yields_header hpointer (origin_ne_zero hinside)).bind_iff] at hwrite
  dsimp only at hwrite
  rw [hread.bind_iff] at hwrite
  obtain ⟨references, b₁, hreferences, hrest⟩ := Access.yields_bind.mp hwrite
  obtain ⟨rfl, hsigned⟩ := readReferences_yields_iff.mp hreferences
  split_ifs at hrest with hfits
  · have hpositive := p.pointerSize_pos
    obtain ⟨hlength, htext, hkeeps, halloc⟩ := fill_spec hinside hrest
    refine Written.kept block capacity rfl hfits ⟨hinside, ?_, hlength⟩ ?_ htext ?_ halloc
    · refine hkeeps.holdsCount hheader.capacity fun x hx => ?_
      simp only [Buffer.Within] at *
      omega
    · refine hkeeps.holdsWord hpointer fun x hx => ?_
      simp only [Buffer.Within] at *
      omega
    · refine hkeeps.mono fun x hx => ?_
      simp only [Buffer.Within] at *
      omega
  · exact written_moved hobject hlimit hsigned.fits _ hrest

/-! ### Growth -/

theorem grows_locate : Buffer.Grows (locate (Buffer.space p s) a order) := by
  refine (Buffer.Grows.liftM _).bind fun layout => ?_
  refine (Buffer.Grows.liftM _).bind fun slot => ?_
  refine (Buffer.grows_readWord.bind fun _ => Buffer.Grows.pure _).bind fun null => ?_
  split_ifs
  · exact Buffer.Grows.pure _
  · refine (Buffer.Grows.bind Buffer.grows_readWord fun target => ?_).bind fun first => ?_
    · split_ifs
      · exact Buffer.Grows.throw _
      · exact Buffer.Grows.pure _
    · refine (Buffer.Grows.liftM _).bind fun _ => ?_
      exact (Buffer.Grows.liftM _).bind fun _ => Buffer.Grows.pure _

theorem grows_moveToBlock (slot : PointerSlot) (data : Bytes) (references : Int) :
    Buffer.Grows (moveToBlock (Buffer.space p s) slot data references) := by
  refine (Buffer.Grows.liftM _).bind fun layout => ?_
  refine (Buffer.grows_allocate _).bind fun block => ?_
  refine Buffer.Grows.bind (Buffer.grows_writeWord _) fun _ => ?_
  refine (CompositeView.grows_writeCount _ _ _).bind fun _ => ?_
  refine Buffer.Grows.bind ?_ fun _ => Buffer.Grows.pure _
  exact (Buffer.Grows.liftM _).bind fun _ => Buffer.grows_writeSignedWord _

theorem grows_write : Buffer.Grows (write (Buffer.space p s) a text order) := by
  refine grows_locate.bind fun string => ?_
  have hfill : ∀ header : CompositeView, Buffer.Grows (fill p s header text) := by
    intro header
    refine (CompositeView.grows_writeCount _ _ _).bind fun _ => ?_
    exact (Buffer.Grows.liftM _).bind fun _ => Buffer.grows_writeBytes _
  dsimp only
  cases string.header with
  | none => exact (grows_moveToBlock _ _ _).bind hfill
  | some header =>
    refine (CompositeView.grows_readCount _ _).bind fun capacity => ?_
    refine Buffer.Grows.bind ((Buffer.Grows.liftM _).bind fun _ => Buffer.grows_readSignedWord)
      fun references => ?_
    split_ifs
    · exact hfill header
    · exact (grows_moveToBlock _ _ _).bind hfill

end CountedString

end TypedMemory
