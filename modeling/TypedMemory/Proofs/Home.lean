import TypedMemory.Proofs.Buffer.Effects
import TypedMemory.Proofs.Value.Scalar
import TypedMemory.Value.Slot

/-!
# Memories that views belong to

A view that is assigned to a buffer belongs to some memory, its home, and this is where it
is read.  The home may be the buffer itself, or another memory, which has a state of its
own.  So accesses run on two states, a buffer and whatever else there is:

* `Space.onFirst`, `Space.onSecond`: a memory that has one of two states;
* `Space.assignFrom_onFirst`: it does with that state what it does with it alone;
* `Home`: a memory of both that leaves the buffer as it is where it is read.
-/

namespace TypedMemory

open Access

variable {σ τ ι : Type}

/-! ### Reading that leaves a part of the state -/

namespace Port

variable {part : σ → ι} {port : Port σ}
  (hread : ∀ address length, Leaves part (port.readBytes address length))

include hread

theorem leaves_readExactly (address : Address) (length : Nat) :
    Leaves part (port.readExactly address length) := by
  refine (hread address length).bind fun data => ?_
  split
  · exact (ReadOnly.pure data).leaves
  · exact (ReadOnly.throw _).leaves

theorem leaves_readWord (address : Address) (order : ByteOrder) :
    Leaves part (port.readWord address order) := by
  rw [readWord_eq]
  exact (leaves_readExactly hread _ _).map _

end Port

/-! ### Composites that are assigned -/

namespace Field

variable {m home : Space σ} {type : TypeId} {source : CompositeView}

/-- A composite is copied as it comes, if its type has the right name. -/
theorem assignFrom_composite (hname : source.layout.name = m.schema.name type) (slot : Address)
    (order : ByteOrder) :
    (composite type).assignFrom m home slot (.composite source) order =
      source.readImage home >>= m.writeBytes slot :=
  if_pos hname

theorem assignFrom_composite_of_ne (hname : source.layout.name ≠ m.schema.name type)
    (slot : Address) (order : ByteOrder) :
    (composite type).assignFrom m home slot (.composite source) order =
      throw (.compositeMismatch (m.schema.name type) source.layout.name) :=
  if_neg hname

end Field

/-! ### Two memories -/

namespace Space

/-- A memory that has the first of two states. -/
def onFirst (m : Space σ) : Space (σ × τ) where
  platform := m.platform
  schema := m.schema
  readBytes address length := (m.readBytes address length).onFirst
  writeBytes address data := (m.writeBytes address data).onFirst
  allocate size := (m.allocate size).onFirst

/-- A memory that has the second of two states. -/
def onSecond (m : Space τ) : Space (σ × τ) where
  platform := m.platform
  schema := m.schema
  readBytes address length := (m.readBytes address length).onSecond
  writeBytes address data := (m.writeBytes address data).onSecond
  allocate size := (m.allocate size).onSecond

/-! A memory does the same with one of two states as with its own. -/

section Lifted

variable (m home : Space σ) (address : Address) (order : ByteOrder)

theorem readExactly_onFirst (length : Nat) :
    (m.onFirst : Space (σ × τ)).readExactly address length =
      (m.readExactly address length).onFirst := by
  unfold Port.readExactly
  rw [onFirst_bind]
  congr 1
  funext bytes
  rw [apply_ite Access.onFirst]
  rfl

theorem readWord_onFirst :
    (m.onFirst : Space (σ × τ)).readWord address order = (m.readWord address order).onFirst := by
  rw [Port.readWord_eq, Port.readWord_eq, onFirst_map, ← readExactly_onFirst]
  rfl

theorem writeWord_onFirst (w : UInt64) :
    (m.onFirst : Space (σ × τ)).writeWord address w order =
      (m.writeWord address w order).onFirst := by
  rw [Port.writeWord_eq, Port.writeWord_eq, apply_ite Access.onFirst]
  rfl

theorem pointerTarget_onFirst (v : Value) :
    v.pointerTarget (m.onFirst : Space (σ × τ)) home.onFirst =
      (v.pointerTarget m home).onFirst := by
  unfold Value.pointerTarget
  cases v with
  | pointer slot => exact home.readWord_onFirst slot.address slot.order
  | _ =>
    simp only
    split
    · rfl
    · split <;> rfl

theorem assignFrom_onFirst {field : Field} (hplain : ∀ abi, field ≠ .string abi) (v : Value) :
    field.assignFrom (m.onFirst : Space (σ × τ)) home.onFirst address v order =
      (field.assignFrom m home address v order).onFirst := by
  cases field with
  | void | array | fill => rfl
  | scalar kind =>
    show kind.write m.onFirst.toPort address v order = (kind.write m.toPort address v order).onFirst
    rw [kind.write_eq, kind.write_eq, onFirst_bind]
    rfl
  | pointer target =>
    show (v.pointerTarget m.onFirst home.onFirst >>= fun w =>
        m.onFirst.writeWord address w order) =
      (v.pointerTarget m home >>= fun w => m.writeWord address w order).onFirst
    rw [onFirst_bind, pointerTarget_onFirst]
    congr 1
    funext w
    exact m.writeWord_onFirst address order w
  | composite type =>
    cases v with
    | composite source =>
      by_cases hname : source.layout.name = m.schema.name type
      · rw [Field.assignFrom_composite hname, Field.assignFrom_composite (m := m.onFirst) hname,
          onFirst_bind]
        rfl
      · rw [Field.assignFrom_composite_of_ne hname,
          Field.assignFrom_composite_of_ne (m := m.onFirst) hname]
        rfl
    | _ => rfl
  | string abi => exact absurd rfl (hplain abi)

end Lifted

end Space

/-- A memory from which views are assigned to a buffer.  Reading it leaves the buffer as it is. -/
structure Home (τ : Type) extends Space (Buffer × τ) where
  leaves : ∀ address length, Leaves Prod.fst (readBytes address length)

namespace Home

/-- The buffer itself. -/
def here (p : Platform) (s : Schema) : Home τ :=
  { (Buffer.space p s).onFirst with
    leaves := fun address length => (Buffer.readOnly_readBytes address length).leaves_onFirst }

/-- Another memory, of any kind. -/
def elsewhere (m : Space τ) : Home τ :=
  { m.onSecond with leaves := fun address length => leaves_onSecond (m.readBytes address length) }

variable (home : Home τ)

theorem leaves_targetAddress (slot : PointerSlot) :
    Leaves Prod.fst (slot.targetAddress home.toSpace) :=
  Port.leaves_readWord home.leaves slot.address slot.order

theorem leaves_readImage (view : CompositeView) :
    Leaves Prod.fst (view.readImage home.toSpace) :=
  home.leaves view.firstByte view.layout.size

theorem leaves_pointerTarget (m : Space (Buffer × τ)) (v : Value) :
    Leaves Prod.fst (v.pointerTarget m home.toSpace) := by
  unfold Value.pointerTarget
  cases v with
  | pointer slot => exact home.leaves_targetAddress slot
  | _ =>
    simp only
    split
    · exact (ReadOnly.throw _).leaves
    · split
      · exact (ReadOnly.pure _).leaves
      · exact (ReadOnly.throw _).leaves

end Home

end TypedMemory
