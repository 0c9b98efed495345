import TypedMemory.Buffer.Builder
import TypedMemory.Proofs.Buffer
import TypedMemory.Proofs.Port

/-!
# Buffers that were built

A builder gets longer with each call, and a buffer of the final length takes the same bytes through
its port.  Zero bytes behind the builder make up for the difference, `BufferBuilder.filled`:

* `filled_withBytes`: one store to the builder is the same store to the buffer;
* `mirrors_call`: one call, and the length that the builder has after it;
* `stores_yield_build`: all calls.  The buffer that was built is the one that the stores leave.
-/

namespace TypedMemory

open Access

namespace BufferBuilder

/-- What a builder is asked for once it has its base. -/
inductive Call
  | size (n : Nat)
  | bytes (address : Address) (data : Bytes)
  | unsigned (address : Address) (width : Nat) (value : UInt64)
  deriving DecidableEq, Repr

namespace Call

def build? (b : BufferBuilder) : Call → Option BufferBuilder
  | size n => some (b.withSize n)
  | bytes address data => b.withBytes address data
  | unsigned address width value => b.withUnsigned address width value

/-- The same bytes through a port, which can not be asked for a size. -/
def store {σ : Type} (port : Port σ) : Call → Access σ Unit
  | size _ => pure ()
  | bytes address data => port.writeBytes address data
  | unsigned address width value => port.writeUnsigned address width value .native

/-- The number of bytes that the call needs, counted from the base. -/
def extent (base : Address) : Call → Nat
  | size n => n
  | bytes address data => address.toNat - base.toNat + data.length
  | unsigned address width _ => address.toNat - base.toNat + width

/-- The call stays above the base and in the address space, and a word fits its bytes. -/
def IsValid (base : Address) : Call → Prop
  | size _ => True
  | bytes address data => base ≤ address ∧ address.toNat + data.length < wordLimit
  | unsigned address width value =>
    base ≤ address ∧ 0 < width ∧ width ≤ widestScalar ∧ value.toNat < 256 ^ width ∧
      address.toNat + width < wordLimit

instance (base : Address) : (call : Call) → Decidable (call.IsValid base)
  | size _ => inferInstanceAs (Decidable True)
  | bytes .. | unsigned .. => inferInstanceAs (Decidable (_ ∧ _))

end Call

/-- The greatest number of bytes that one of the calls needs, zero if there are none. -/
def extent (base : Address) (calls : List Call) : Nat :=
  (calls.map (Call.extent base)).foldr max 0

variable {b b' : BufferBuilder} {call : Call} {calls : List Call} {memory data : Bytes}
  {first size : Nat}

theorem extent_cons (base : Address) (call : Call) (rest : List Call) :
    extent base (call :: rest) = max (call.extent base) (extent base rest) := rfl

/-! ### Growing -/

@[simp] theorem length_grow (memory : Bytes) (size : Nat) :
    (grow memory size).length = max memory.length size := by
  simp only [grow, List.length_append, List.length_replicate]
  omega

theorem grow_of_le (h : size ≤ memory.length) : grow memory size = memory := by
  rw [grow, Nat.sub_eq_zero_of_le h, List.replicate_zero, List.append_nil]

theorem grow_grow (h : first ≤ size) : grow (grow memory first) size = grow memory size := by
  have hcount : first - memory.length + (size - max memory.length first) =
      size - memory.length := by
    omega
  rw [grow, length_grow, grow, grow, List.append_assoc, List.replicate_append_replicate, hcount]

/-- Bytes that are added behind a store do not meet it. -/
theorem grow_overwrite (h : first + data.length ≤ memory.length) (size : Nat) :
    grow (Buffer.overwrite memory first data) size =
      Buffer.overwrite (grow memory size) first data := by
  have hlength := Buffer.length_overwrite h
  unfold grow
  rw [hlength]
  unfold Buffer.overwrite
  rw [List.take_append_of_le_length (by omega), List.drop_append_of_le_length h]
  simp only [List.append_assoc]

/-! ### One call -/

/-- The buffer of at least `size` bytes that starts with those of the builder. -/
def filled (b : BufferBuilder) (size : Nat) : Buffer := ⟨b.base, grow b.memory size, []⟩

theorem filled_eq_build (h : size ≤ b.memory.length) : b.filled size = b.build := by
  rw [filled, grow_of_le h, build]

theorem mapped_filled {a : Address} (hbase : b.base ≤ a)
    (hsize : a.toNat - b.base.toNat + first ≤ size) (hend : a.toNat + first < wordLimit) :
    (b.filled size).Mapped a.toNat first := by
  have hlow : b.base.toNat ≤ a.toNat := UInt64.le_iff_toNat_le.mp hbase
  refine ⟨hlow, ?_, ?_⟩
  · simp only [Buffer.limit, filled, length_grow]
    omega
  · show _ < b.base.toNat + wordLimit
    omega

/-- The access stores in buffers of `size` bytes what makes `b'` of `b`, and `b'` has at least
`extent` bytes. -/
structure Mirrors (size : Nat) (b : BufferBuilder) (x : Access Buffer Unit) (extent : Nat)
    (b' : BufferBuilder) : Prop where
  platform_eq : b'.platform = b.platform
  base_eq : b'.base = b.base
  length_eq : b'.memory.length = max b.memory.length extent
  yields : x.Yields (b.filled size) () (b'.filled size)

theorem filled_withBytes {a : Address} (hbase : b.base ≤ a)
    (hsize : a.toNat - b.base.toNat + data.length ≤ size)
    (hend : a.toNat + data.length < wordLimit) :
    ∃ b', b.withBytes a data = some b' ∧
      Mirrors size b (Buffer.writeBytes a data) (a.toNat - b.base.toNat + data.length) b' := by
  have hroom : a.toNat - b.base.toNat + data.length ≤
      (grow b.memory (a.toNat - b.base.toNat + data.length)).length := by
    rw [length_grow]
    exact le_max_right _ _
  have hbuilt : b.withBytes a data = some
      { b with
        memory := Buffer.overwrite (grow b.memory (a.toNat - b.base.toNat + data.length))
          (a.toNat - b.base.toNat) data } := by
    have hnot : ¬ a < b.base := UInt64.not_lt.mpr hbase
    simp [withBytes, hnot]
  refine ⟨_, hbuilt, rfl, rfl, ?_, ?_⟩
  · rw [Buffer.length_overwrite hroom, length_grow]
  · refine Buffer.writeBytes_yields_iff.mpr ⟨mapped_filled hbase hsize hend, ?_⟩
    simp only [filled, Buffer.store, grow_overwrite hroom, grow_grow hsize]

/-- Each call does to the builder what its store does to the buffer. -/
theorem mirrors_call (hvalid : call.IsValid b.base) (hsize : call.extent b.base ≤ size) :
    ∃ b', call.build? b = some b' ∧
      Mirrors size b (call.store (Buffer.port b.platform)) (call.extent b.base) b' := by
  cases call with
  | size n =>
    refine ⟨b.withSize n, rfl, rfl, rfl, length_grow _ _, ?_⟩
    refine yields_pure.mpr ⟨rfl, ?_⟩
    simp only [filled, withSize, grow_grow (show n ≤ size from hsize)]
  | bytes a data => exact filled_withBytes hvalid.1 hsize hvalid.2
  | unsigned a n value =>
    obtain ⟨hbase, hpos, hwide, hfits, hend⟩ := hvalid
    have hlength : (bytesOfWord value n (ByteOrder.native.isBigEndian b.platform)).length = n :=
      length_bytesOfWord hwide _ _
    have hstore : (Call.unsigned a n value).store (Buffer.port b.platform) =
        Buffer.writeBytes a (bytesOfWord value n (ByteOrder.native.isBigEndian b.platform)) := by
      show (Buffer.port b.platform).writeUnsigned a n value .native = _
      rw [Port.writeUnsigned_eq hpos hwide, if_pos hfits]
      rfl
    have hfilled := filled_withBytes (b := b) hbase (hlength.symm ▸ hsize) (hlength.symm ▸ hend)
    obtain ⟨b', hb', hmirrors⟩ := hfilled
    rw [hlength] at hmirrors
    exact ⟨b', hb', hstore ▸ hmirrors⟩

/-! ### All calls -/

theorem mirrors_calls (hvalid : ∀ call ∈ calls, call.IsValid b.base)
    (hsize : extent b.base calls ≤ size) :
    ∃ b', calls.foldlM Call.build? b = some b' ∧
      Mirrors size b (forM calls (Call.store (Buffer.port b.platform))) (extent b.base calls)
        b' := by
  induction calls generalizing b with
  | nil =>
    refine ⟨b, rfl, rfl, rfl, ?_, yields_pure.mpr ⟨rfl, rfl⟩⟩
    exact (Nat.max_zero _).symm
  | cons call rest ih =>
    rw [extent_cons] at hsize
    obtain ⟨b₁, hb₁, hfirst⟩ := mirrors_call (hvalid call List.mem_cons_self)
      ((le_max_left _ _).trans hsize)
    -- the rest goes on with the platform and the base of the builder
    obtain ⟨b₂, hb₂, hrest⟩ := ih (b := b₁)
      (by
        intro other hother
        rw [hfirst.base_eq]
        exact hvalid other (List.mem_cons_of_mem call hother))
      (by
        rw [hfirst.base_eq]
        exact (le_max_right _ _).trans hsize)
    rw [hfirst.platform_eq, hfirst.base_eq] at hrest
    refine ⟨b₂, ?_, hrest.platform_eq.trans hfirst.platform_eq,
      hrest.base_eq.trans hfirst.base_eq, ?_, ?_⟩
    · rw [List.foldlM_cons, hb₁]
      exact hb₂
    · rw [hrest.length_eq, hfirst.length_eq, extent_cons, max_assoc]
    · rw [List.forM_cons]
      exact (hfirst.yields.bind_iff).mpr hrest.yields

/-- A builder that is given its base and then takes any calls above the base builds a buffer with
the bytes that the greatest of the calls needs, and with no blocks.  A buffer of zero bytes has the
same bytes after the stores of the calls, all of which succeed. -/
theorem stores_yield_build {p : Platform} {base : Address}
    (hvalid : ∀ call ∈ calls, call.IsValid base) :
    ∃ b, calls.foldlM Call.build? ((empty p).withBase base) = some b ∧
      b.build.base = base ∧ b.build.memory.length = extent base calls ∧
      b.build.allocations = [] ∧
      (forM calls (Call.store (Buffer.port p))).Yields
        (Buffer.zeroed base (extent base calls)) () b.build := by
  obtain ⟨b, hb, hmirrors⟩ := mirrors_calls (b := (empty p).withBase base) hvalid
    (le_refl (extent base calls))
  have hlength : b.memory.length = extent base calls :=
    hmirrors.length_eq.trans (Nat.zero_max _)
  have hstores := hmirrors.yields
  rw [filled_eq_build hlength.ge] at hstores
  exact ⟨b, hb, hmirrors.base_eq, hlength, rfl, hstores⟩

/-- Two words that overlap, the lower one behind the higher one, bytes over the first of them, and
no bytes at the end of a gap. -/
def scatteredCalls : List Call :=
  [.unsigned 4108 4 0x01020304, .size 6, .unsigned 4106 4 0xa0b0c0d0, .bytes 4109 [7, 8],
    .bytes 4116 []]

theorem stores_yield_build_scattered :
    ∃ b, scatteredCalls.foldlM Call.build? ((empty ⟨.b32, .linux, .big⟩).withBase 4100) =
        some b ∧
      b.build = ⟨4100, [0, 0, 0, 0, 0, 0, 0xa0, 0xb0, 0xc0, 7, 8, 4, 0, 0, 0, 0], []⟩ ∧
      (forM scatteredCalls (Call.store (Buffer.port ⟨.b32, .linux, .big⟩))).Yields
        (Buffer.zeroed 4100 16) () b.build := by
  have hvalid : ∀ call ∈ scatteredCalls, call.IsValid 4100 := by decide
  obtain ⟨b, hb, -, -, -, hstores⟩ :=
    stores_yield_build (p := ⟨.b32, .linux, .big⟩) hvalid
  refine ⟨b, hb, ?_, hstores⟩
  have hrun : (forM scatteredCalls (Call.store (Buffer.port ⟨.b32, .linux, .big⟩))).Yields
      (Buffer.zeroed 4100 16) ()
      ⟨4100, [0, 0, 0, 0, 0, 0, 0xa0, 0xb0, 0xc0, 7, 8, 4, 0, 0, 0, 0], []⟩ := by
    decide +kernel
  exact (hstores.unique hrun).2

end BufferBuilder

end TypedMemory
