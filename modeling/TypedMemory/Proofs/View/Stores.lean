import TypedMemory.Proofs.Value.Slot
import TypedMemory.View.Access

/-!
# Stores that fail

A typed store goes through a field, a member, an element or a pointer.  It works out
first where and what to store, for which it may read memory, that of the buffer or the one
that the value belongs to, and then it stores once.  So whatever goes wrong on the way,
nothing has been stored.

* `Buffer.StoresOnce`: the access stores one run of bytes in the buffer, or none.
* `storesOnce_of_leaves`: what is read beforehand does not matter.
* `TypedStore.run_onFirst`: next to another state, a store does what it does in the buffer alone.
* `TypedStore.all_or_nothing`: a store that fails leaves the buffer as it was, if the field that
  it stores to is not a string object.  Those take several stores.
-/

namespace TypedMemory

open Access

variable {p : Platform} {s : Schema} {τ : Type}

namespace Buffer

/-- The access stores one run of bytes in the buffer.  Or it leaves the buffer as it is, which is so
at any rate if it fails. -/
def StoresOnce (x : Access (Buffer × τ) Unit) : Prop :=
  ∀ w w', (x.Fails w w' → w'.1 = w.1) ∧
    (x.Yields w () w' → w'.1 = w.1 ∨
      ∃ address data, w.1.Mapped address data.length ∧ w'.1 = w.1.store address data)

variable {α : Type} {a : Address} {order : ByteOrder}

theorem storesOnce_pure (u : Unit) : StoresOnce (pure u : Access (Buffer × τ) Unit) := by
  intro w w'
  constructor
  · intro h
    exact absurd h not_fails_pure
  · intro h
    exact Or.inl (congrArg Prod.fst (yields_pure.mp h).2.symm)

theorem storesOnce_throw (e : Error) : StoresOnce (throw e : Access (Buffer × τ) Unit) := by
  intro w w'
  constructor
  · intro h
    exact congrArg Prod.fst ((ReadOnly.throw e).eq_of_fails h)
  · intro h
    exact absurd h yields_throw

theorem storesOnce_writeBytes (a : Address) (data : Bytes) :
    StoresOnce ((space p s).onFirst.writeBytes a data : Access (Buffer × τ) Unit) := by
  rintro ⟨b, t⟩ w'
  constructor
  · intro h
    exact (writeBytes_fails h.of_onFirst).2
  · intro h
    obtain ⟨hmapped, hstored⟩ := writeBytes_yields_iff.mp h.of_onFirst
    exact Or.inr ⟨a.toNat, data, hmapped, hstored⟩

/-- Reading first, here or elsewhere, makes no difference to what is stored. -/
theorem storesOnce_of_leaves {x : Access (Buffer × τ) α} {f : α → Access (Buffer × τ) Unit}
    (hx : Leaves Prod.fst x) (hf : ∀ r, StoresOnce (f r)) : StoresOnce (x >>= f) := by
  intro w w'
  constructor
  · intro h
    rcases fails_bind.mp h with hread | ⟨r, v, hread, hstore⟩
    · exact hx.of_fails hread
    · exact ((hf r v w').1 hstore).trans (hx.of_yields hread)
  · intro h
    obtain ⟨r, v, hread, hstore⟩ := yields_bind.mp h
    have hsame := hx.of_yields hread
    rw [← hsame]
    exact (hf r v w').2 hstore

theorem storesOnce_writeWord (a : Address) (w : UInt64) (order : ByteOrder) :
    StoresOnce ((space p s).onFirst.writeWord a w order : Access (Buffer × τ) Unit) := by
  rw [Port.writeWord_eq]
  split
  · exact storesOnce_writeBytes _ _
  · exact storesOnce_throw _

end Buffer

open Buffer

/-! ### Fields -/

variable (home : Home τ)

theorem Field.storesOnce_assignFrom {field : Field} (hplain : ∀ abi, field ≠ .string abi)
    (a : Address) (v : Value) (order : ByteOrder) :
    StoresOnce (field.assignFrom (space p s).onFirst home.toSpace a v order) := by
  cases field with
  | void | array | fill => exact storesOnce_pure ()
  | scalar kind =>
    show StoresOnce (kind.write (space p s).onFirst.toPort a v order)
    rw [kind.write_eq]
    exact storesOnce_of_leaves (ReadOnly.liftM _).leaves fun data => storesOnce_writeBytes a data
  | pointer target =>
    exact storesOnce_of_leaves (home.leaves_pointerTarget _ v) fun w =>
      storesOnce_writeWord a w order
  | composite type =>
    cases v with
    | composite source =>
      by_cases hname : source.layout.name = s.name type
      · rw [assignFrom_composite hname]
        exact storesOnce_of_leaves (home.leaves_readImage source) (storesOnce_writeBytes a)
      · rw [assignFrom_composite_of_ne hname]
        exact storesOnce_throw _
    | _ => exact storesOnce_throw _
  | string abi => exact absurd rfl (hplain abi)

/-! ### Fields and views -/

theorem PointerSlot.follow_onFirst {σ : Type} (m : Space σ) (slot : PointerSlot) :
    slot.follow (m.onFirst : Space (σ × τ)) = (slot.follow m).onFirst := by
  show (m.onFirst.readWord slot.address slot.order >>= _) =
    (m.readWord slot.address slot.order >>= _).onFirst
  rw [onFirst_bind, ← Space.readWord_onFirst]
  congr 1
  funext target
  rw [apply_ite Access.onFirst]
  rfl

theorem PointerSlot.leaves_follow (slot : PointerSlot) :
    Leaves Prod.fst (slot.follow (space p s).onFirst : Access (Buffer × τ) Address) := by
  refine ((Home.here p s).leaves_targetAddress slot).bind fun target => ?_
  split
  · exact (ReadOnly.throw _).leaves
  · exact (ReadOnly.pure _).leaves

/-- The ways to store a value. -/
inductive TypedStore
  | field (field : Field) (address : Address) (value : Value) (order : ByteOrder)
  | member (view : CompositeView) (name : String) (value : Value)
  | element (view : ArrayView) (index : Nat) (value : Value)
  /-- The target of a pointer. -/
  | target (slot : PointerSlot) (value : Value)
  /-- The pointer itself. -/
  | pointer (slot : PointerSlot) (target : Address)
  deriving DecidableEq

namespace TypedStore

/-- Stores in `m` a value that is one of `home` if it is a view. -/
def run {σ : Type} (m home : Space σ) : TypedStore → Access σ Unit
  | field f address value order => f.assignFrom m home address value order
  | member view name value => view.assignFrom m home name value
  | element view index value => view.assignFrom m home index value
  | target slot value => slot.assignFrom m home value
  | pointer slot address => slot.setTargetAddress m address

/-- The field that is stored to, if there is one. -/
def slot? : TypedStore → Option Field
  | field f _ _ _ => some f
  | member view name _ => (view.layout.field? name).map (·.field)
  | element view _ _ => some view.element
  | target slot _ => some slot.target
  | pointer slot _ => some (.pointer slot.target)

variable {store : TypedStore}

theorem ne_string (hplain : ∀ abi, store.slot? ≠ some (.string abi)) {f : Field}
    (hslot : store.slot? = some f) (abi : StringAbi) : f ≠ .string abi := by
  rintro rfl
  exact hplain abi hslot

/-- In the first of two states a store does what it does in that state alone. -/
theorem run_onFirst {σ : Type} (m home : Space σ)
    (hplain : ∀ abi, store.slot? ≠ some (.string abi)) :
    store.run (m.onFirst : Space (σ × τ)) home.onFirst = (store.run m home).onFirst := by
  cases store with
  | field f address value order =>
    exact m.assignFrom_onFirst home address order (ne_string hplain rfl) value
  | member view name value =>
    show (liftM (view.layout.find name) >>= _) =
      Access.onFirst (liftM (view.layout.find name) >>= _)
    unfold Layout.find
    cases hfield : view.layout.field? name with
    | none => rfl
    | some f =>
      have hslot : (member view name value).slot? = some f.field := by rw [slot?, hfield]; rfl
      exact m.assignFrom_onFirst home _ view.order (ne_string hplain hslot) value
  | element view index value =>
    show (liftM (view.addressAt m index) >>= _) =
      Access.onFirst (liftM (view.addressAt m index) >>= _)
    rw [onFirst_bind]
    congr 1
    funext address
    exact m.assignFrom_onFirst home address view.order (ne_string hplain rfl) value
  | target slot value =>
    show (slot.follow m.onFirst >>= _) = (slot.follow m >>= _).onFirst
    rw [onFirst_bind, ← slot.follow_onFirst]
    congr 1
    funext target
    rw [onFirst_bind]
    congr 1
    funext first
    exact m.assignFrom_onFirst home first slot.order (ne_string hplain rfl) value
  | pointer slot target => exact m.writeWord_onFirst slot.address slot.order target

theorem storesOnce_run (hplain : ∀ abi, store.slot? ≠ some (.string abi)) :
    StoresOnce (store.run (space p s).onFirst home.toSpace) := by
  cases store with
  | field f address value order =>
    exact Field.storesOnce_assignFrom home (ne_string hplain rfl) address value order
  | member view name value =>
    show StoresOnce (liftM (view.layout.find name) >>= _)
    unfold Layout.find
    cases hfield : view.layout.field? name with
    | none => exact storesOnce_throw _
    | some f =>
      have hslot : (member view name value).slot? = some f.field := by rw [slot?, hfield]; rfl
      exact Field.storesOnce_assignFrom home (ne_string hplain hslot) _ value view.order
  | element view index value =>
    exact storesOnce_of_leaves (ReadOnly.liftM _).leaves fun address =>
      Field.storesOnce_assignFrom home (ne_string hplain rfl) address value view.order
  | target slot value =>
    refine storesOnce_of_leaves slot.leaves_follow fun target => ?_
    exact storesOnce_of_leaves (ReadOnly.liftM _).leaves fun first =>
      Field.storesOnce_assignFrom home (ne_string hplain rfl) first value slot.order
  | pointer slot target => exact storesOnce_writeWord slot.address target slot.order

/-- A store that fails has changed nothing in the buffer, and a store that succeeds has at most
stored one run of bytes. -/
theorem all_or_nothing {w w' : Buffer × τ} (hplain : ∀ abi, store.slot? ≠ some (.string abi)) :
    ((store.run (space p s).onFirst home.toSpace).Fails w w' → w'.1 = w.1) ∧
      ((store.run (space p s).onFirst home.toSpace).Yields w () w' → w'.1 = w.1 ∨
        ∃ address data, w.1.Mapped address data.length ∧ w'.1 = w.1.store address data) :=
  storesOnce_run home hplain w w'

/-- A pointer to the address 4112, and 16 bytes behind it. -/
def cutBuffer : Buffer :=
  ⟨4096, bytesOfWord 4112 8 false ++ List.replicate 16 7, []⟩

/-- Copies 16 bytes to the target of the pointer, of which eight bytes are mapped. -/
def cutStore (source : Address) : TypedStore :=
  .target ⟨4096, .composite (.declared 1), .native⟩
    (.composite ⟨source, Field.widerLayout, .native⟩)

/-- The bytes are those of the buffer, or those of another memory, or that memory has not got
them. -/
theorem all_or_nothing_cutStore :
    let m := space .host Field.twinSchema
    let other : Home Buffer := .elsewhere (space .host .empty)
    let start : Buffer × Buffer := (cutBuffer, .zeroed 8192 16)
    (∃ b', ((cutStore 4104).run m m).Fails cutBuffer b' ∧ b' = cutBuffer) ∧
      (∃ w, ((cutStore 8192).run m.onFirst other.toSpace).Fails start w ∧ w.1 = cutBuffer) ∧
      ∃ w, ((cutStore 8200).run m.onFirst other.toSpace).Fails start w ∧ w.1 = cutBuffer := by
  intro m other start
  have hplain : ∀ source abi, (cutStore source).slot? ≠ some (.string abi) := nofun
  have hhere : ((cutStore 4104).run m m).Fails cutBuffer
      (eval ((cutStore 4104).run m m) cutBuffer).2 :=
    ⟨.memoryAccess 4112 16 .pastRegion, by decide +kernel⟩
  have hstore : ((cutStore 8192).run m.onFirst other.toSpace).Fails start
      (eval ((cutStore 8192).run m.onFirst other.toSpace) start).2 :=
    ⟨.memoryAccess 4112 16 .pastRegion, by decide +kernel⟩
  have hread : ((cutStore 8200).run m.onFirst other.toSpace).Fails start
      (eval ((cutStore 8200).run m.onFirst other.toSpace) start).2 :=
    ⟨.memoryAccess 8200 16 .pastRegion, by decide +kernel⟩
  refine ⟨⟨_, hhere, ?_⟩, ⟨_, hstore, ?_⟩, ⟨_, hread, ?_⟩⟩
  · have hlifted := hhere.onFirst ()
    rw [← run_onFirst m m (hplain 4104)] at hlifted
    exact (all_or_nothing (.here .host Field.twinSchema) (hplain 4104)).1 hlifted
  · exact (all_or_nothing other (hplain 8192)).1 hstore
  · exact (all_or_nothing other (hplain 8200)).1 hread

end TypedStore

end TypedMemory
