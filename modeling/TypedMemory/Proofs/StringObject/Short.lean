import TypedMemory.Proofs.StringObject.Content
import TypedMemory.Proofs.StringObject.Layouts
import TypedMemory.StringObject.Short

/-!
# Strings with an inline buffer

What a buffer holds where a string was written.  `ShortString.read` looks at the
capacity, so there is one lemma for characters within the object (`read_inline`) and
one for characters in a block (`read_block`).  `ShortString.write` has five branches,
which are the four cases of `Places`.

The object has its capacity behind its length.  Below, `a.toNat + 16 + p.pointerSize`
is the address of the capacity, and it has to be an address.
-/

namespace TypedMemory

open StringObject

namespace ShortString

variable {p : Platform} {s : Schema} {order : ByteOrder} {a : Address} {b b' : Buffer}
  {text : String}

/-! ### The parts of the object -/

/-- The object at an address. -/
def located (p : Platform) (a : Address) (order : ByteOrder) : ShortString :=
  ⟨⟨a, shortLayout p, order⟩, a, a⟩

theorem heapSlot_located : (located p a order).heapSlot = a := rfl

theorem order_located : (located p a order).object.order = order := rfl

theorem locate_eq {σ : Type} (m : Space σ) (a : Address) (order : ByteOrder) :
    locate m a order = .ok (located m.platform a order) := by
  have hmove : ((a.move 0).move (-0)).move 0 = a := by simp
  have hobject : m.layout (.builtin .shortString) = .ok (shortLayout m.platform) :=
    m.schema.layout_shortString m.platform
  have hcontent : m.layout (.builtin .shortStringContent) = .ok (contentLayout m.platform) :=
    m.schema.layout_shortStringContent m.platform
  unfold locate
  rw [hobject, hcontent]
  change Except.ok (ShortString.mk ⟨a, shortLayout m.platform, order⟩
    (((a.move 0).move (-0)).move 0) (((a.move 0).move (-0)).move 0)) = _
  rw [hmove]
  rfl

theorem locate_space : locate (Buffer.space p s) a order = .ok (located p a order) :=
  locate_eq _ a order

theorem addressOf_length :
    (located p a order).object.addressOf "length" = .ok (a.move (16 : Nat)) := rfl

theorem addressOf_capacity :
    (located p a order).object.addressOf "capacity" = .ok (a.move (16 + p.pointerSize : Nat)) :=
  rfl

theorem readCount_yields_iff {string : ShortString} {name : String} {member : Address}
    (hmember : string.object.addressOf name = .ok member) {count : Nat} :
    (string.readCount (Buffer.space p s) name).Yields b count b' ↔
      b' = b ∧ b.HoldsCount p string.object.order member.toNat count :=
  CompositeView.readCount_yields_iff hmember

theorem writeCount_yields_iff {string : ShortString} {name : String} {member : Address}
    (hmember : string.object.addressOf name = .ok member) {count : Nat} {u : Unit} :
    (string.writeCount (Buffer.space p s) name count).Yields b u b' ↔
      (UInt64.ofNat count).toNat < 256 ^ p.pointerSize ∧ b.Mapped member.toNat p.pointerSize ∧
        b' = b.store member.toNat
          (Buffer.wordBytes p string.object.order (UInt64.ofNat count)) :=
  CompositeView.writeCount_yields_iff hmember

/-- The pointer to the characters is the first word of the object. -/
theorem heapAddress_yields_iff {heap : Address} :
    ((located p a order).heapAddress (Buffer.space p s)).Yields b heap b' ↔
      b' = b ∧ b.HoldsWord p order a.toNat heap :=
  Buffer.readWord_yields_iff

/-! ### The length and the capacity -/

/-- The length and the capacity that lie behind the characters. -/
structure HoldsCounts (b : Buffer) (p : Platform) (order : ByteOrder) (a : Address)
    (length capacity : Nat) : Prop where
  inside : a.toNat + 16 + p.pointerSize < wordLimit
  length : b.HoldsCount p order (a.toNat + 16) length
  capacity : b.HoldsCount p order (a.toNat + 16 + p.pointerSize) capacity

theorem HoldsCounts.keeps {changed : Nat → Prop} {length capacity : Nat}
    (h : HoldsCounts b p order a length capacity) (hkeeps : b.Keeps b' changed)
    (hout : ∀ x, Buffer.Within a.toNat (16 + 2 * p.pointerSize) x → ¬ changed x) :
    HoldsCounts b' p order a length capacity := by
  refine ⟨h.inside, hkeeps.holdsCount h.length fun x hx => hout x ?_,
    hkeeps.holdsCount h.capacity fun x hx => hout x ?_⟩
  all_goals
    simp only [Buffer.Within] at *
    omega

theorem toNat_move_length (h : a.toNat + 16 + p.pointerSize < wordLimit) :
    (a.move (16 : Nat)).toNat = a.toNat + 16 :=
  Address.toNat_move_natCast (by omega)

theorem toNat_move_capacity (h : a.toNat + 16 + p.pointerSize < wordLimit) :
    (a.move (16 + p.pointerSize : Nat)).toNat = a.toNat + 16 + p.pointerSize := by
  rw [Address.toNat_move_natCast (by omega), Nat.add_assoc]

/-! ### Reading -/

section Read

variable {length capacity : Nat} (h : HoldsCounts b p order a length capacity)

include h

/-- Reading begins with the length and the capacity. -/
theorem read_yields_iff {result : String} :
    (read (Buffer.space p s) a order).Yields b result b' ↔
      (if capacity < Builtin.inlineCapacity then do
        let bytes ← Buffer.readBytes a (min length Builtin.inlineCapacity)
        match decodeContent a bytes with
        | .ok text => return text
        | .error _ =>
          let found ← tryCatch ((located p a order).readHeap? (Buffer.space p s) length)
            fun _ => pure none
          return found.getD ""
      else do
        let heap ← (located p a order).heapAddress (Buffer.space p s)
        if heap = 0 then return ""
        else
          let bytes ← Buffer.readBytes heap length
          return contentOrEmpty heap bytes : Access Buffer String).Yields b result b' := by
  have hlength : ((located p a order).readCount (Buffer.space p s) "length").Yields b length b :=
    (readCount_yields_iff addressOf_length).mpr ⟨rfl, by
      rw [toNat_move_length h.inside]
      exact h.length⟩
  have hcapacity :
      ((located p a order).readCount (Buffer.space p s) "capacity").Yields b capacity b :=
    (readCount_yields_iff addressOf_capacity).mpr ⟨rfl, by
      rw [toNat_move_capacity h.inside]
      exact h.capacity⟩
  unfold read
  rw [(Access.yields_liftM.mpr ⟨locate_space, rfl⟩).bind_iff, hlength.bind_iff,
    hcapacity.bind_iff]
  rfl

/-- Well-formed characters within the object. -/
theorem read_inline (hsmall : capacity < Builtin.inlineCapacity) {bytes : Bytes}
    (hlength : bytes.length = min length Builtin.inlineCapacity) (hbytes : b.Holds a.toNat bytes)
    (hdecode : Utf8.decode? bytes = some text) :
    (read (Buffer.space p s) a order).Yields b text b := by
  rw [read_yields_iff h, if_pos hsmall,
    (Buffer.readBytes_yields_iff.mpr ⟨rfl, hlength, hbytes⟩).bind_iff]
  simp only [decodeContent, hdecode]
  exact Access.yields_pure.mpr ⟨rfl, rfl⟩

/-- Where the bytes within the object are no characters, those of the block are read. -/
theorem read_inline_malformed (hsmall : capacity < Builtin.inlineCapacity) {bytes : Bytes}
    (hlength : bytes.length = min length Builtin.inlineCapacity) (hbytes : b.Holds a.toNat bytes)
    (hdecode : Utf8.decode? bytes = none) (hsize : length = Utf8.size text) {heap : Address}
    (hheap : b.HoldsWord p order a.toNat heap) (hne : heap ≠ 0)
    (htext : b.Holds heap.toNat (withTerminator text)) :
    (read (Buffer.space p s) a order).Yields b text b := by
  have hfound :
      ((located p a order).readHeap? (Buffer.space p s) length).Yields b (some text) b := by
    unfold readHeap?
    rw [(heapAddress_yields_iff.mpr ⟨rfl, hheap⟩).bind_iff, if_neg hne, hsize,
      Buffer.readBytes_space, (readBytes_encode htext).bind_iff, decodeContent_encode]
    exact Access.yields_pure.mpr ⟨rfl, rfl⟩
  rw [read_yields_iff h, if_pos hsmall,
    (Buffer.readBytes_yields_iff.mpr ⟨rfl, hlength, hbytes⟩).bind_iff]
  simp only [decodeContent, hdecode]
  rw [hfound.tryCatch.bind_iff]
  exact Access.yields_pure.mpr ⟨rfl, rfl⟩

/-- Characters in a block. -/
theorem read_block (hlarge : Builtin.inlineCapacity ≤ capacity) (hsize : length = Utf8.size text)
    {heap : Address} (hheap : b.HoldsWord p order a.toNat heap) (hne : heap ≠ 0)
    (htext : b.Holds heap.toNat (withTerminator text)) :
    (read (Buffer.space p s) a order).Yields b text b := by
  rw [read_yields_iff h, if_neg (by omega), (heapAddress_yields_iff.mpr ⟨rfl, hheap⟩).bind_iff,
    if_neg hne, hsize, (readBytes_encode htext).bind_iff, contentOrEmpty_encode]
  exact Access.yields_pure.mpr ⟨rfl, rfl⟩

end Read

/-! ### Writing -/

/-- The buffer after characters were put into a new block. -/
def moved (b : Buffer) (p : Platform) (order : ByteOrder) (a : Address) (data : Bytes) : Buffer :=
  let size := powerOfTwo data.length
  (((b.grown size).store a.toNat (Buffer.wordBytes p order b.nextBlock)).store
    b.nextBlock.toNat data).store (a.toNat + 16 + p.pointerSize)
      (Buffer.wordBytes p order (UInt64.ofNat (size - 1)))

/-- What the new block needs. -/
structure CanMove (b : Buffer) (p : Platform) (a : Address) (data : Bytes) : Prop where
  pointer_lt : b.nextBlock.toNat < 256 ^ p.pointerSize
  pointer_mapped : (b.grown (powerOfTwo data.length)).Mapped a.toNat p.pointerSize
  data_mapped : (b.grown (powerOfTwo data.length)).Mapped b.nextBlock.toNat data.length
  capacity_lt : (UInt64.ofNat (powerOfTwo data.length - 1)).toNat < 256 ^ p.pointerSize
  capacity_mapped :
    (b.grown (powerOfTwo data.length)).Mapped (a.toNat + 16 + p.pointerSize) p.pointerSize

/-- Where a text is put, as it follows from the capacity of the object. -/
inductive Places (b : Buffer) (p : Platform) (order : ByteOrder) (a : Address) (text : String)
    (capacity : Nat) : Buffer → Prop
  | inline (hfits : Utf8.size text ≤ capacity) (hsmall : capacity < Builtin.inlineCapacity)
      (hm : b.Mapped a.toNat (Utf8.size text + 1)) :
      Places b p order a text capacity (b.store a.toNat (withTerminator text))
  | enlarged (hover : capacity < Utf8.size text) (hshort : Utf8.size text < Builtin.inlineCapacity)
      (hm : b.Mapped a.toNat (Utf8.size text + 1))
      (hcm : b.Mapped (a.toNat + 16 + p.pointerSize) p.pointerSize)
      (hlt : (UInt64.ofNat 15).toNat < 256 ^ p.pointerSize) :
      Places b p order a text capacity ((b.store a.toNat (withTerminator text)).store
        (a.toNat + 16 + p.pointerSize) (Buffer.wordBytes p order (UInt64.ofNat 15)))
  | block (heap : Address) (hfits : Utf8.size text ≤ capacity)
      (hlarge : Builtin.inlineCapacity ≤ capacity) (hheap : b.HoldsWord p order a.toNat heap)
      (hne : heap ≠ 0) (hm : b.Mapped heap.toNat (Utf8.size text + 1)) :
      Places b p order a text capacity (b.store heap.toNat (withTerminator text))
  | moved (hwhy : Builtin.inlineCapacity ≤ capacity ∧ b.HoldsWord p order a.toNat 0 ∨
        capacity < Utf8.size text ∧ Builtin.inlineCapacity ≤ Utf8.size text)
      (hmove : CanMove b p a (withTerminator text)) :
      Places b p order a text capacity (moved b p order a (withTerminator text))

theorem moveToHeap_yields (h : a.toNat + 16 + p.pointerSize < wordLimit) {data : Bytes} {u : Unit}
    (hmove : ((located p a order).moveToHeap (Buffer.space p s) data).Yields b u b') :
    CanMove b p a data ∧ b' = moved b p order a data := by
  unfold moveToHeap at hmove
  simp only [heapSlot_located, order_located] at hmove
  obtain ⟨heap, b₁, hallocate, hmove⟩ := Access.yields_bind.mp hmove
  obtain ⟨-, rfl, rfl⟩ := Buffer.allocate_yields_iff.mp hallocate
  obtain ⟨_, b₂, hword, hmove⟩ := Access.yields_bind.mp hmove
  obtain ⟨hpointer, hpointerMapped, rfl⟩ := Buffer.writeWord_yields_iff.mp hword
  obtain ⟨_, b₃, hdata, hmove⟩ := Access.yields_bind.mp hmove
  obtain ⟨hdataMapped, rfl⟩ := Buffer.writeBytes_yields_iff.mp hdata
  obtain ⟨hcapacity, hcapacityMapped, rfl⟩ := (writeCount_yields_iff addressOf_capacity).mp hmove
  have hpointer' : (b.grown (powerOfTwo data.length)).Mapped a.toNat
      (Buffer.wordBytes p order b.nextBlock).length := by
    rwa [Buffer.length_wordBytes]
  rw [toNat_move_capacity h] at hcapacityMapped ⊢
  rw [Buffer.mapped_store hdataMapped, Buffer.mapped_store hpointer'] at hcapacityMapped
  rw [Buffer.mapped_store hpointer'] at hdataMapped
  exact ⟨⟨hpointer, hpointerMapped, hdataMapped, hcapacity, hcapacityMapped⟩, rfl⟩

theorem setLength_yields (h : a.toNat + 16 + p.pointerSize < wordLimit) {length : Nat} {u : Unit}
    (hset : ((located p a order).writeCount (Buffer.space p s) "length" length).Yields b u b') :
    (UInt64.ofNat length).toNat < 256 ^ p.pointerSize ∧ b.Mapped (a.toNat + 16) p.pointerSize ∧
      b' = b.store (a.toNat + 16) (Buffer.wordBytes p order (UInt64.ofNat length)) := by
  have hset := (writeCount_yields_iff addressOf_length).mp hset
  rwa [toNat_move_length h, order_located] at hset

/-- A text that is written is put in one of four places, and then its length is set. -/
theorem write_yields (h : a.toNat + 16 + p.pointerSize < wordLimit) {capacity : Nat}
    (hcapacity : b.HoldsCount p order (a.toNat + 16 + p.pointerSize) capacity) {u : Unit}
    (hwrite : (write (Buffer.space p s) a text order).Yields b u b') :
    ∃ b₁, Places b p order a text capacity b₁ ∧
      (UInt64.ofNat (Utf8.size text)).toNat < 256 ^ p.pointerSize ∧
        b₁.Mapped (a.toNat + 16) p.pointerSize ∧
          b' = b₁.store (a.toNat + 16)
            (Buffer.wordBytes p order (UInt64.ofNat (Utf8.size text))) := by
  have hread : ((located p a order).readCount (Buffer.space p s) "capacity").Yields b capacity b :=
    (readCount_yields_iff addressOf_capacity).mpr ⟨rfl, by rwa [toNat_move_capacity h]⟩
  unfold write at hwrite
  rw [(Access.yields_liftM.mpr ⟨locate_space, rfl⟩).bind_iff, hread.bind_iff] at hwrite
  dsimp only at hwrite
  split_ifs at hwrite with hfits hsmall hshort
  · obtain ⟨_, b₁, hdata, hset⟩ := Access.yields_bind.mp hwrite
    obtain ⟨hm, rfl⟩ := Buffer.writeBytes_yields_iff.mp hdata
    rw [length_withTerminator] at hm
    exact ⟨_, Places.inline hfits hsmall hm, setLength_yields h hset⟩
  · obtain ⟨heap, _, hword, hrest⟩ := Access.yields_bind.mp hwrite
    obtain ⟨rfl, hheap⟩ := heapAddress_yields_iff.mp hword
    split_ifs at hrest with hnull
    · obtain ⟨_, b₁, hmove, hset⟩ := Access.yields_bind.mp hrest
      obtain ⟨hcan, rfl⟩ := moveToHeap_yields h hmove
      exact ⟨_, Places.moved (Or.inl ⟨by omega, hnull ▸ hheap⟩) hcan, setLength_yields h hset⟩
    · obtain ⟨_, b₁, hdata, hset⟩ := Access.yields_bind.mp hrest
      obtain ⟨hm, rfl⟩ := Buffer.writeBytes_yields_iff.mp hdata
      rw [length_withTerminator] at hm
      exact ⟨_, Places.block heap hfits (by omega) hheap hnull hm, setLength_yields h hset⟩
  · obtain ⟨_, b₁, hdata, hrest⟩ := Access.yields_bind.mp hwrite
    obtain ⟨_, b₂, hc, hset⟩ := Access.yields_bind.mp hrest
    obtain ⟨hm, rfl⟩ := Buffer.writeBytes_yields_iff.mp hdata
    obtain ⟨hlt, hcm, rfl⟩ := (writeCount_yields_iff addressOf_capacity).mp hc
    rw [toNat_move_capacity h, Buffer.mapped_store hm] at hcm
    rw [length_withTerminator] at hm
    rw [toNat_move_capacity h] at hset
    exact ⟨_, Places.enlarged (by omega) hshort hm hcm hlt, setLength_yields h hset⟩
  · obtain ⟨_, b₁, hmove, hset⟩ := Access.yields_bind.mp hwrite
    obtain ⟨hcan, rfl⟩ := moveToHeap_yields h hmove
    exact ⟨_, Places.moved (Or.inr ⟨by omega, by omega⟩) hcan, setLength_yields h hset⟩

/-! ### Growth -/

theorem grows_moveToHeap (string : ShortString) (data : Bytes) :
    Buffer.Grows (string.moveToHeap (Buffer.space p s) data) := by
  refine (Buffer.grows_allocate _).bind fun heap => ?_
  refine (Buffer.grows_writeWord _).bind fun _ => ?_
  refine (Buffer.grows_writeBytes _).bind fun _ => ?_
  exact CompositeView.grows_writeCount string.object "capacity" _

theorem grows_write : Buffer.Grows (write (Buffer.space p s) a text order) := by
  refine (Buffer.Grows.liftM _).bind fun string => ?_
  have hlength : Buffer.Grows (string.writeCount (Buffer.space p s) "length" (Utf8.size text)) :=
    CompositeView.grows_writeCount string.object "length" _
  refine (CompositeView.grows_readCount string.object "capacity").bind fun capacity => ?_
  dsimp only
  split_ifs
  · exact (Buffer.grows_writeBytes _).bind fun _ => hlength
  · refine Buffer.grows_readWord.bind fun heap => ?_
    split_ifs
    · exact (grows_moveToHeap string _).bind fun _ => hlength
    · exact (Buffer.grows_writeBytes _).bind fun _ => hlength
  · refine (Buffer.grows_writeBytes _).bind fun _ => ?_
    exact (CompositeView.grows_writeCount string.object "capacity" _).bind fun _ => hlength
  · exact (grows_moveToHeap string _).bind fun _ => hlength

end ShortString

end TypedMemory
