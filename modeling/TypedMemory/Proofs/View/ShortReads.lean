import TypedMemory.Port.Restricted
import TypedMemory.Proofs.Buffer.Faults
import TypedMemory.Proofs.Home
import TypedMemory.Proofs.Value.Scalar
import TypedMemory.View.Access

/-!
# Reads that fall short

A port may give fewer bytes than it is asked for.  `Port.readExactly` counts them and refuses what
falls short, and so does everything that begins with it (`Port.Counts`): scalars, and all that
follows a pointer.  The assignment of a composite and the image of an array take the bytes as they
come,

    readExactly a n >>= rest        and        readBytes a n >>= writeBytes a'.

* `Port.Counts.eval_of_fallsShort`: what counts fails in the state that the read leaves.
* `ByteConsumer.Asks`: the bytes that an operation needs, and the state in which it asks for them.
* `ByteConsumer.refuses_short_iff`: what counts is refused.  An assignment is refused only if the
  store of fewer bytes is, and otherwise it stores them.
-/

namespace TypedMemory

open Access

variable {σ α β : Type}

/-- The access fails from `s` for lack of bytes, and leaves `t`. -/
def Access.LacksBytes (x : Access σ α) (s t : σ) : Prop :=
  ∃ e, eval x s = (.error e, t) ∧ e.IsMemoryAccess

theorem Access.Yields.not_lacksBytes {x : Access σ α} {s t u : σ} {a : α} (h : x.Yields s a t) :
    ¬ x.LacksBytes s u := by
  intro hlacks
  obtain ⟨e, heval, -⟩ := hlacks
  exact h.not_fails ⟨e, heval⟩

theorem Access.eval_map_congr {x y : Access σ α} {s t : σ} (h : eval x s = eval y t) (f : α → β) :
    eval (f <$> x) s = eval (f <$> y) t := by
  rw [← bind_pure_comp, ← bind_pure_comp, eval_bind, eval_bind, h]

namespace Port

variable {port : Port σ} {address : Address} {order : ByteOrder} {length : Nat} {s t : σ}
  {data : Bytes} {x : Access σ α}

/-- From `s` the port gives `data`, fewer bytes than it is asked for. -/
def FallsShort (port : Port σ) (address : Address) (length : Nat) (s : σ) (data : Bytes) (t : σ) :
    Prop :=
  (port.readBytes address length).Yields s data t ∧ data.length < length

/-- The access reads bytes and counts them before it does anything else. -/
def Counts (port : Port σ) (address : Address) (length : Nat) (x : Access σ α) : Prop :=
  ∃ rest : Bytes → Access σ α, x = port.readExactly address length >>= rest

theorem counts_readExactly : port.Counts address length (port.readExactly address length) :=
  ⟨pure, (bind_pure _).symm⟩

theorem Counts.bind (hx : port.Counts address length x) (f : α → Access σ β) :
    port.Counts address length (x >>= f) := by
  obtain ⟨rest, rfl⟩ := hx
  exact ⟨fun data => rest data >>= f, bind_assoc _ _ _⟩

theorem Counts.map (hx : port.Counts address length x) (f : α → β) :
    port.Counts address length (f <$> x) := by
  rw [← bind_pure_comp]
  exact hx.bind _

theorem Counts.eval_of_fallsShort (hx : port.Counts address length x)
    (hshort : port.FallsShort address length s data t) :
    eval x s = (.error (.memoryAccess address length (.incomplete data.length)), t) := by
  obtain ⟨rest, rfl⟩ := hx
  obtain ⟨hread, hlt⟩ := hshort
  unfold readExactly
  rw [bind_assoc, hread.eval_bind, if_neg hlt.ne]
  rfl

theorem counts_readUnsigned (hpos : 0 < length) (hsize : length ≤ widestScalar) :
    port.Counts address length (port.readUnsigned address length order) := by
  rw [readUnsigned_eq hpos hsize]
  exact counts_readExactly.map _

theorem counts_readSigned (hpos : 0 < length) (hsize : length ≤ widestScalar) :
    port.Counts address length (port.readSigned address length order) := by
  rw [readSigned_eq hpos hsize]
  exact counts_readExactly.map _

theorem counts_readScalar (kind : ScalarKind) :
    port.Counts address (kind.sizeOn port.platform) (kind.read port address order) := by
  rw [kind.read_eq]
  exact counts_readExactly.map _

end Port

open Port

section Pointer

variable {m : Space σ}

theorem PointerSlot.counts_targetAddress (slot : PointerSlot) :
    m.Counts slot.address m.platform.pointerSize (slot.targetAddress m) :=
  counts_readUnsigned m.platform.pointerSize_pos m.platform.pointerSize_le

theorem PointerSlot.counts_follow (slot : PointerSlot) :
    m.Counts slot.address m.platform.pointerSize (slot.follow m) :=
  slot.counts_targetAddress.bind _

theorem PointerSlot.counts_offset {slot : PointerSlot} {stride : Nat}
    (hstride : m.fieldSize slot.target = .ok stride) (delta : Int) :
    m.Counts slot.address m.platform.pointerSize (slot.offset m delta) := by
  unfold offset
  rw [hstride, liftM_ok_bind]
  exact slot.counts_follow.bind _

/-- A load of a scalar, once it is known where it lies. -/
theorem PointerSlot.eval_load (slot : PointerSlot) {kind : ScalarKind} {x : Access σ Address}
    {s t : σ} {target : Address} (htarget : slot.target = .scalar kind)
    (hx : x.Yields s target t) :
    eval (x >>= fun target => liftM (slot.targetSlot m target) >>= fun first =>
      slot.target.read m first slot.order) s = eval (kind.read m.toPort target slot.order) t := by
  rw [hx.eval_bind, targetSlot, htarget]
  rfl

end Pointer

/-! ### All that needs the bytes it asks for -/

/-- What asks the port for bytes and needs all of them. -/
inductive ByteConsumer
  | scalar (kind : ScalarKind) (address : Address) (order : ByteOrder)
  | unsigned (address : Address) (size : Nat) (order : ByteOrder)
  | signed (address : Address) (size : Nat) (order : ByteOrder)
  /-- The address that a pointer holds. -/
  | follow (slot : PointerSlot)
  | load (slot : PointerSlot)
  | store (slot : PointerSlot) (value : Value)
  | move (slot : PointerSlot) (delta : Int)
  | loadAt (slot : PointerSlot) (index : Int)
  /-- The assignment of a composite. -/
  | assign (type : TypeId) (source : CompositeView) (address : Address) (order : ByteOrder)
  | image (view : ArrayView) (count : Nat)
  deriving DecidableEq

namespace ByteConsumer

/-- Runs the operation on `m`.  A view that is stored is one of `home`. -/
def run (m home : Space σ) : ByteConsumer → Access σ Unit
  | scalar kind address order => (fun _ => ()) <$> kind.read m.toPort address order
  | unsigned address size order => (fun _ => ()) <$> m.readUnsigned address size order
  | signed address size order => (fun _ => ()) <$> m.readSigned address size order
  | follow slot => (fun _ => ()) <$> slot.follow m
  | load slot => (fun _ => ()) <$> slot.get m
  | store slot value => slot.assignFrom m home value
  | move slot delta => (fun _ => ()) <$> slot.offset m delta
  | loadAt slot index => (fun _ => ()) <$> slot.getAt m index
  | assign type source address order =>
    (Field.composite type).assignFrom m home address (.composite source) order
  | image view count => (fun _ => ()) <$> view.readImage m count

/-- From `s` the operation comes to `t`, and there it asks a port for bytes.  What is refused before
that asks for none. -/
inductive Asks (m home : Space σ) : ByteConsumer → σ → Port σ → Address → Nat → σ → Prop
  | scalar (kind : ScalarKind) (address : Address) (order : ByteOrder) (s : σ) :
    Asks m home (.scalar kind address order) s m.toPort address (kind.sizeOn m.platform) s
  | unsigned {size : Nat} (hpos : 0 < size) (hsize : size ≤ widestScalar) (address : Address)
    (order : ByteOrder) (s : σ) :
    Asks m home (.unsigned address size order) s m.toPort address size s
  | signed {size : Nat} (hpos : 0 < size) (hsize : size ≤ widestScalar) (address : Address)
    (order : ByteOrder) (s : σ) :
    Asks m home (.signed address size order) s m.toPort address size s
  | follow (slot : PointerSlot) (s : σ) :
    Asks m home (.follow slot) s m.toPort slot.address m.platform.pointerSize s
  | load (slot : PointerSlot) (s : σ) :
    Asks m home (.load slot) s m.toPort slot.address m.platform.pointerSize s
  | loadTarget {slot : PointerSlot} {kind : ScalarKind} {target : Address} {s t : σ}
    (htarget : slot.target = .scalar kind) (hfollow : (slot.follow m).Yields s target t) :
    Asks m home (.load slot) s m.toPort target (kind.sizeOn m.platform) t
  | store (slot : PointerSlot) (value : Value) (s : σ) :
    Asks m home (.store slot value) s m.toPort slot.address m.platform.pointerSize s
  | move {slot : PointerSlot} {stride : Nat} (hstride : m.fieldSize slot.target = .ok stride)
    (delta : Int) (s : σ) :
    Asks m home (.move slot delta) s m.toPort slot.address m.platform.pointerSize s
  | loadAt {slot : PointerSlot} {stride : Nat} (hstride : m.fieldSize slot.target = .ok stride)
    (index : Int) (s : σ) :
    Asks m home (.loadAt slot index) s m.toPort slot.address m.platform.pointerSize s
  | loadAtTarget {slot : PointerSlot} {kind : ScalarKind} {index : Int} {target : Address}
    {s t : σ} (htarget : slot.target = .scalar kind)
    (hmove : (slot.offset m index).Yields s target t) :
    Asks m home (.loadAt slot index) s m.toPort target (kind.sizeOn m.platform) t
  | assign {type : TypeId} {source : CompositeView}
    (hname : source.layout.name = m.schema.name type) (address : Address) (order : ByteOrder)
    (s : σ) :
    Asks m home (.assign type source address order) s home.toPort source.firstByte
      source.layout.size s
  | image {view : ArrayView} {count stride : Nat} (hcount : count ≠ 0)
    (hindex : view.checkIndex (count - 1) = .ok ())
    (hstride : m.fieldSize view.element = .ok stride) (s : σ) :
    Asks m home (.image view count) s m.toPort view.address (count * stride % wordLimit) s

/-- Where the bytes are copied to, if they are. -/
def destination? : ByteConsumer → Option Address
  | assign _ _ address _ => some address
  | _ => none

/-- Whether the bytes are handed on as they come. -/
def passesOn : ByteConsumer → Bool
  | assign .. | image .. => true
  | _ => false

variable {m home : Space σ} {op : ByteConsumer} {port : Port σ} {address destination : Address}
  {length : Nat} {s t : σ}

/-- What comes after the state in which the bytes are asked for. -/
theorem exists_counts (hasks : op.Asks m home s port address length t)
    (hcounts : op.passesOn = false) :
    ∃ x : Access σ Unit, port.Counts address length x ∧ eval (op.run m home) s = eval x t := by
  cases hasks with
  | scalar kind => exact ⟨_, (counts_readScalar kind).map _, rfl⟩
  | unsigned hpos hsize => exact ⟨_, (counts_readUnsigned hpos hsize).map _, rfl⟩
  | signed hpos hsize => exact ⟨_, (counts_readSigned hpos hsize).map _, rfl⟩
  | follow slot => exact ⟨_, slot.counts_follow.map _, rfl⟩
  | load slot => exact ⟨_, (slot.counts_follow.bind _).map _, rfl⟩
  | store slot value => exact ⟨_, slot.counts_follow.bind _, rfl⟩
  | move hstride delta => exact ⟨_, (PointerSlot.counts_offset hstride delta).map _, rfl⟩
  | loadAt hstride index => exact ⟨_, ((PointerSlot.counts_offset hstride index).bind _).map _, rfl⟩
  | @loadTarget slot kind _ _ _ htarget hfollow =>
    exact ⟨_, (counts_readScalar kind).map _, eval_map_congr (slot.eval_load htarget hfollow) _⟩
  | @loadAtTarget slot kind _ _ _ _ htarget hmove =>
    exact ⟨_, (counts_readScalar kind).map _, eval_map_congr (slot.eval_load htarget hmove) _⟩
  | assign | image => cases hcounts

/-- An assignment stores what the port gives. -/
theorem run_of_destination (hasks : op.Asks m home s port address length t)
    (hdestination : op.destination? = some destination) :
    s = t ∧ op.run m home = port.readBytes address length >>= m.writeBytes destination := by
  cases hasks with
  | assign hname a order =>
    cases hdestination
    exact ⟨rfl, Field.assignFrom_composite hname destination order⟩
  | _ => cases hdestination

/-- An image is what the port gives. -/
theorem run_of_passesOn (hasks : op.Asks m home s port address length t)
    (hpasses : op.passesOn = true) (hdestination : op.destination? = none) :
    s = t ∧ op.run m home = (fun _ => ()) <$> port.readBytes address length := by
  cases hasks with
  | image hcount hindex hstride =>
    refine ⟨rfl, ?_⟩
    simp only [run, ArrayView.readImage, if_neg hcount, hindex, hstride, liftM_ok_bind]
  | assign => cases hdestination
  | _ => cases hpasses

/-- Where a port falls short, scalars and pointers are refused for lack of bytes and nothing is
written.  What passes the bytes on is refused only if it copies them, and the store of those that
came is refused likewise.  An assignment that succeeds has stored exactly what the port gave. -/
theorem refuses_short_iff (hasks : op.Asks m home s port address length t) :
    (∀ data u, port.FallsShort address length t data u →
      ((op.run m home).LacksBytes s u ↔
        op.passesOn = false ∨ ∃ destination, op.destination? = some destination ∧
          (m.writeBytes destination data).LacksBytes u u)) ∧
    ∀ destination v, op.destination? = some destination →
      ((op.run m home).Yields s () v ↔ ∃ data u, (port.readBytes address length).Yields s data u ∧
        (m.writeBytes destination data).Yields u () v) := by
  constructor
  · intro data u hshort
    cases hpasses : op.passesOn with
    | false =>
      obtain ⟨x, hcounts, hrun⟩ := exists_counts hasks hpasses
      rw [hcounts.eval_of_fallsShort hshort] at hrun
      exact iff_of_true ⟨_, hrun, _, _, _, rfl⟩ (Or.inl rfl)
    | true =>
      cases hdestination : op.destination? with
      | some destination =>
        obtain ⟨rfl, hrun⟩ := run_of_destination hasks hdestination
        have heval : eval (op.run m home) s = eval (m.writeBytes destination data) u := by
          rw [hrun, hshort.1.eval_bind]
        simp [LacksBytes, heval]
      | none =>
        obtain ⟨rfl, hrun⟩ := run_of_passesOn hasks hpasses hdestination
        have hyields : (op.run m home).Yields s () u := by
          rw [hrun]
          exact yields_map.mpr ⟨data, hshort.1, rfl⟩
        simp [hyields.not_lacksBytes]
  · intro destination v hdestination
    obtain ⟨rfl, hrun⟩ := run_of_destination hasks hdestination
    rw [hrun, yields_bind]

/-- A struct of two words, at `4096` in sixteen bytes that hold more behind it. -/
def coupleBuffer : Buffer :=
  ⟨4096, [1, 2, 3, 4, 5, 6, 7, 8] ++ List.replicate 8 160, []⟩

/-- A port that gives five bytes at most, and a schema with the type of the struct. -/
def coupleSpace : Space Buffer :=
  { (Buffer.port .host).limitReads 5 with
    schema := { declared := [
      ⟨"Couple", .struct, some { fields := [("a", .scalar .u32), ("b", .scalar .u32)] }⟩] } }

/-- The struct in `coupleBuffer`, which is assigned to the struct at another address. -/
def assignCouple (address : Address) : ByteConsumer :=
  .assign (.declared 0)
    ⟨4096, { name := "Couple", kind := .struct, platform := .host, size := 8, alignment := 4
             start := 0, fields := [⟨"a", .scalar .u32, 0, 4, 4⟩, ⟨"b", .scalar .u32, 4, 4, 4⟩] },
      .native⟩ address .native

theorem asks_assignCouple (address : Address) :
    (assignCouple address).Asks coupleSpace coupleSpace coupleBuffer coupleSpace.toPort 4096 8
      coupleBuffer :=
  .assign rfl address .native coupleBuffer

theorem fallsShort_couple :
    coupleSpace.FallsShort 4096 8 coupleBuffer [1, 2, 3, 4, 5] coupleBuffer :=
  ⟨by decide +kernel, by decide⟩

/-- A scalar of eight bytes is refused.  So is the assignment to an address outside the buffer. -/
theorem refuses_short_couple :
    ((scalar .u64 4096 .native).run coupleSpace coupleSpace).LacksBytes coupleBuffer coupleBuffer ∧
    ((assignCouple 4112).run coupleSpace coupleSpace).LacksBytes coupleBuffer coupleBuffer := by
  constructor
  · have hasks : (scalar .u64 4096 .native).Asks coupleSpace coupleSpace coupleBuffer
        coupleSpace.toPort 4096 8 coupleBuffer :=
      .scalar .u64 4096 .native coupleBuffer
    have hrefuses := refuses_short_iff hasks
    exact (hrefuses.1 _ _ fallsShort_couple).mpr (Or.inl rfl)
  · have hstore : (coupleSpace.writeBytes 4112 [1, 2, 3, 4, 5]).LacksBytes coupleBuffer
        coupleBuffer :=
      ⟨.memoryAccess 4112 5 .pastRegion, by decide +kernel, _, _, _, rfl⟩
    have hrefuses := refuses_short_iff (asks_assignCouple 4112)
    exact (hrefuses.1 _ _ fallsShort_couple).mpr (Or.inr ⟨4112, rfl, hstore⟩)

/-- Inside the buffer the assignment succeeds with five of its eight bytes, and the image of eight
bytes has five. -/
theorem not_refuses_short_couple :
    (assignCouple 4104).Asks coupleSpace coupleSpace coupleBuffer coupleSpace.toPort 4096 8
      coupleBuffer ∧
    (image ⟨4096, .scalar .u32, some 2, .native⟩ 2).Asks coupleSpace coupleSpace coupleBuffer
      coupleSpace.toPort 4096 8 coupleBuffer ∧
    coupleSpace.FallsShort 4096 8 coupleBuffer [1, 2, 3, 4, 5] coupleBuffer ∧
    ((assignCouple 4104).run coupleSpace coupleSpace).Yields coupleBuffer ()
      ⟨4096, [1, 2, 3, 4, 5, 6, 7, 8, 1, 2, 3, 4, 5, 160, 160, 160], []⟩ ∧
    ((ArrayView.mk 4096 (.scalar .u32) (some 2) .native).readImage coupleSpace 2).Yields
      coupleBuffer [1, 2, 3, 4, 5] coupleBuffer := by
  have hstride : coupleSpace.fieldSize (.scalar .u32) = .ok 4 := by decide +kernel
  have hasks : (image ⟨4096, .scalar .u32, some 2, .native⟩ 2).Asks coupleSpace coupleSpace
      coupleBuffer coupleSpace.toPort 4096 (2 * 4 % wordLimit) coupleBuffer :=
    .image two_ne_zero rfl hstride coupleBuffer
  exact ⟨asks_assignCouple 4104, hasks, fallsShort_couple, by decide +kernel, by decide +kernel⟩

end ByteConsumer

end TypedMemory
