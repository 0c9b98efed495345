import TypedMemory.Proofs.Value.Scalar
import TypedMemory.View.Access

/-!
# Navigation

Views are followed one hop at a time: a member of a composite, an element of an array, the
target of a pointer (`Value.follow`).  Each hop makes a new view, with the address of its
slot or of its origin and with a byte order.

`Walks` is the same path without views.  It goes from place to place by the arithmetic of
addresses, loads the words of the pointers that it follows, and in the end decodes the bytes
of a scalar.  All words and all scalars are in the byte order from which the walk started.
Both find the same scalars (`follow_yields_iff`): the first byte and the origin of a composite
are converted into each other at every hop, and nothing of this is left.
-/

namespace TypedMemory

open Access

/-- One step from a view to a value that lies in it, or behind it. -/
inductive Hop
  | member (name : String)
  | element (index : Nat)
  | target
  deriving DecidableEq, Repr

namespace Value

section

variable {σ : Type} (m : Space σ)

def hop (v : Value) : Hop → Access σ Value
  | .member name => do
    let view ← liftM v.toComposite
    view.get m name
  | .element index => do
    let view ← liftM v.toArray
    view.get m index
  | .target => do
    let slot ← liftM v.toPointer
    slot.get m

def follow : Value → List Hop → Access σ Value
  | v, [] => return v
  | v, hop :: rest => do
    let next ← v.hop m hop
    next.follow rest

end

/-- Numbers and truth values. -/
def isScalar : Value → Bool
  | bool _ | int _ | single _ | double _ => true
  | void | text _ | array _ | pointer _ | composite _ => false

/-- The byte order in which a view shows what lies in it. -/
def order? : Value → Option ByteOrder
  | array view => some view.order
  | pointer slot => some slot.order
  | composite view => some view.order
  | void | bool _ | int _ | single _ | double _ | text _ => none

end Value

/-! ### The walk on addresses -/

/-- A number as an address, around the end of the address space. -/
def wrapped (n : Int) : Nat :=
  (n % wordLimit).toNat

/-- A place in memory, and what lies there. -/
inductive Place
  /-- A composite, by the address of its origin. -/
  | composite (layout : Layout) (origin : Nat)
  | array (element : Field) (length : Option Nat) (base : Nat)
  | pointer (target : Field) (slot : Nat)
  | scalar (kind : ScalarKind) (address : Nat)
  deriving DecidableEq, Repr

namespace Place

variable {σ : Type} (m : Space σ)

/-- The place of the field in a slot.  The origin of a composite is as far behind the slot as
its first byte is before the origin. -/
def inSlot? (slot : Nat) : Field → Option Place
  | .composite type =>
    (m.layout type).toOption.map fun l => composite l (wrapped (slot - l.start))
  | .array element length => some (array element length slot)
  | .fill counts => some (array (.scalar .char) (some (counts.get m.platform)) slot)
  | .pointer target => some (pointer target slot)
  | .scalar kind => some (scalar kind slot)
  | .void | .string _ => none

/-- The place of the target of a pointer that holds `address`.  If that is a composite, it is
the address of its origin. -/
def behind? (address : Nat) : Field → Option Place
  | .composite type => (m.layout type).toOption.map fun l => composite l address
  | target => inSlot? m address target

end Place

/-- The number in the bytes of a word. -/
def wordNumber (p : Platform) (order : ByteOrder) (bytes : Bytes) : Nat :=
  Bytes.toNat (arrange (order.isBigEndian p) bytes)

/-- The walk from a place along a path, from the state `st`, comes to a scalar with the value
`v` and leaves `st'`. -/
inductive Walks {σ : Type} (m : Space σ) (order : ByteOrder) :
    Place → List Hop → σ → Value → σ → Prop
  | scalar {kind : ScalarKind} {address : Nat} {bytes : Bytes} {st st' : σ}
      (hread : (m.readExactly (UInt64.ofNat address) (kind.sizeOn m.platform)).Yields st bytes
        st') :
      Walks m order (.scalar kind address) [] st (kind.decode m.platform order bytes) st'
  | member {l : Layout} {origin : Nat} {name : String} {f : PlacedField} {next : Place}
      {rest : List Hop} {st st' : σ} {v : Value} (hf : l.field? name = some f)
      (hnext : Place.inSlot? m (wrapped (origin + f.offset)) f.field = some next)
      (hrest : Walks m order next rest st v st') :
      Walks m order (.composite l origin) (.member name :: rest) st v st'
  | element {element : Field} {length : Option Nat} {base index stride : Nat} {next : Place}
      {rest : List Hop} {st st' : σ} {v : Value} (hindex : ∀ n, length = some n → index < n)
      (hstride : m.fieldSize element = .ok stride) (hend : base + index * stride < wordLimit)
      (hnext : Place.inSlot? m (base + index * stride) element = some next)
      (hrest : Walks m order next rest st v st') :
      Walks m order (.array element length base) (.element index :: rest) st v st'
  | target {target : Field} {slot : Nat} {bytes : Bytes} {next : Place} {rest : List Hop}
      {st mid st' : σ} {v : Value}
      (hload : (m.readExactly (UInt64.ofNat slot) m.platform.pointerSize).Yields st bytes mid)
      (hne : wordNumber m.platform order bytes ≠ 0)
      (hnext : Place.behind? m (wordNumber m.platform order bytes) target = some next)
      (hrest : Walks m order next rest mid v st') :
      Walks m order (.pointer target slot) (.target :: rest) st v st'

/-- The view shows what lies at the place. -/
inductive Shows (order : ByteOrder) : Value → Place → Prop
  | composite (a : Address) (l : Layout) :
      Shows order (.composite ⟨a, l, order⟩) (.composite l a.toNat)
  | array (a : Address) (element : Field) (length : Option Nat) :
      Shows order (.array ⟨a, element, length, order⟩) (.array element length a.toNat)
  | pointer (a : Address) (target : Field) :
      Shows order (.pointer ⟨a, target, order⟩) (.pointer target a.toNat)

variable {σ : Type} {m : Space σ} {order : ByteOrder} {st st' : σ} {v : Value}

theorem toNat_move_eq_wrapped (a : Address) (distance : Int) :
    (a.move distance).toNat = wrapped (a.toNat + distance) := by
  have hmove : ((a.move distance).toNat : Int) = (a.toNat + distance) % wordLimit :=
    toNat_ofInt _
  rw [wrapped, ← hmove, Int.toNat_natCast]

/-! ### Ends of a path -/

namespace Value

/-- The values from which the hop can be made. -/
def Admits : Value → Hop → Prop
  | composite _, .member _ | array _, .element _ | pointer _, .target => True
  | _, _ => False

theorem admits_of_hop {value next : Value} {hop : Hop} (h : (value.hop m hop).Yields st next st') :
    value.Admits hop := by
  cases hop <;> obtain ⟨view, mid, hview, -⟩ := yields_bind.mp h <;>
    obtain ⟨hview, -⟩ := yields_liftM.mp hview <;>
    cases value <;> trivial

theorem admits_of_follow {value : Value} {hop : Hop} {rest : List Hop}
    (h : (value.follow m (hop :: rest)).Yields st v st') : value.Admits hop := by
  obtain ⟨next, mid, hnext, -⟩ := yields_bind.mp h
  exact admits_of_hop hnext

/-- From a value that is no view, only the empty path leads to a scalar, which is the value. -/
theorem follow_iff_of_order? {value : Value} {rest : List Hop} (hvalue : value.order? = none) :
    (value.follow m rest).Yields st v st' ↔ rest = [] ∧ value = v ∧ st = st' := by
  cases rest with
  | nil => simp [follow]
  | cons hop rest =>
    refine iff_of_false (fun h => ?_) nofun
    have hadmits := admits_of_follow h
    cases value with
    | array | pointer | composite => cases hvalue
    | _ => cases hop <;> exact hadmits

theorem order?_of_isScalar {value : Value} (h : value.isScalar = true) : value.order? = none := by
  cases value <;> first | rfl | cases h

end Value

theorem isScalar_decode (kind : ScalarKind) (p : Platform) (order : ByteOrder) (bytes : Bytes) :
    (kind.decode p order bytes).isScalar = true := by
  unfold ScalarKind.decode
  cases kind.intType? with
  | some t => rfl
  | none => cases kind.encoding <;> rfl

/-! ### One slot -/

/-- The path leads from the views of places to the same scalars as from the places. -/
def Follows (m : Space σ) (order : ByteOrder) (path : List Hop) : Prop :=
  ∀ ⦃value place st v st'⦄, Shows order value place →
    ((value.follow m path).Yields st v st' ∧ v.isScalar = true ↔
      Walks m order place path st v st')

theorem scalar_follow_iff {rest : List Hop} (kind : ScalarKind) (a : Address) :
    ((kind.read m.toPort a order >>= fun next => next.follow m rest).Yields st v st' ∧
        v.isScalar = true) ↔ Walks m order (.scalar kind a.toNat) rest st v st' := by
  constructor
  · rintro ⟨h, -⟩
    obtain ⟨value, mid, hvalue, hrest⟩ := yields_bind.mp h
    rw [ScalarKind.read_eq] at hvalue
    obtain ⟨bytes, hbytes, rfl⟩ := yields_map.mp hvalue
    obtain ⟨rfl, rfl, rfl⟩ :=
      (Value.follow_iff_of_order? (Value.order?_of_isScalar (isScalar_decode ..))).mp hrest
    exact .scalar (by rwa [UInt64.ofNat_toNat])
  · rintro ⟨hread⟩
    rw [UInt64.ofNat_toNat] at hread
    refine ⟨?_, isScalar_decode ..⟩
    rw [ScalarKind.read_eq]
    exact yields_bind.mpr ⟨_, _, yields_map.mpr ⟨_, hread, rfl⟩, yields_pure.mpr ⟨rfl, rfl⟩⟩

/-- A composite is read as a view of its origin. -/
theorem read_composite_yields_iff {type : TypeId} {a : Address} {value : Value} {mid : σ} :
    ((Field.composite type).read m a order).Yields st value mid ↔
      ∃ l, m.layout type = .ok l ∧
        value = .composite ⟨a.move (-l.start), l, order⟩ ∧ st = mid := by
  have hread : (Field.composite type).read m a order = liftM (m.layout type) >>= fun l =>
      pure (Value.composite (CompositeView.ofSlot a l order)) := rfl
  rw [hread, yields_bind]
  constructor
  · rintro ⟨l, t, hl, hvalue⟩
    obtain ⟨hlayout, rfl⟩ := yields_liftM.mp hl
    obtain ⟨rfl, rfl⟩ := yields_pure.mp hvalue
    exact ⟨l, hlayout, rfl, rfl⟩
  · rintro ⟨l, hl, rfl, rfl⟩
    exact ⟨l, st, yields_liftM.mpr ⟨hl, rfl⟩, yields_pure.mpr ⟨rfl, rfl⟩⟩

theorem CompositeView.firstByte_ofSlot (a : Address) (l : Layout) (order : ByteOrder) :
    (CompositeView.ofSlot a l order).firstByte = a :=
  Address.move_neg_move a l.start

theorem CompositeView.ofSlot_firstByte (c : CompositeView) :
    CompositeView.ofSlot c.firstByte c.layout c.order = c := by
  rw [CompositeView.ofSlot, CompositeView.firstByte, Address.move_move_neg]

/-- Reading a slot and going on is the same as going on from the place of the field. -/
theorem Follows.slot {rest : List Hop} (hrest : Follows m order rest) (field : Field)
    (a : Address) :
    ((field.read m a order >>= fun next => next.follow m rest).Yields st v st' ∧
        v.isScalar = true) ↔
      ∃ next, Place.inSlot? m a.toNat field = some next ∧ Walks m order next rest st v st' := by
  cases field with
  | scalar kind =>
    rw [Field.read, scalar_follow_iff]
    simp [Place.inSlot?]
  | array element length =>
    rw [Field.read, pure_bind, hrest (.array a element length)]
    simp [Place.inSlot?]
  | fill counts =>
    rw [Field.read, pure_bind, hrest (.array a _ _)]
    simp [Place.inSlot?]
  | pointer target =>
    rw [Field.read, pure_bind, hrest (.pointer a target)]
    simp [Place.inSlot?]
  | composite type =>
    constructor
    · rintro ⟨h, hv⟩
      obtain ⟨value, mid, hvalue, hfollow⟩ := yields_bind.mp h
      obtain ⟨l, hl, rfl, rfl⟩ := read_composite_yields_iff.mp hvalue
      refine ⟨.composite l (a.move (-l.start)).toNat, ?_, (hrest (.composite _ l)).mp ⟨hfollow, hv⟩⟩
      rw [toNat_move_eq_wrapped, ← Int.sub_eq_add_neg, Place.inSlot?, hl]
      rfl
    · rintro ⟨next, hnext, hwalk⟩
      obtain ⟨l, hl, rfl⟩ := Option.map_eq_some_iff.mp hnext
      rw [Int.sub_eq_add_neg, ← toNat_move_eq_wrapped] at hwalk
      obtain ⟨hfollow, hv⟩ := (hrest (.composite _ l)).mpr hwalk
      have hlayout := toOption_eq_some_iff.mp hl
      exact ⟨yields_bind.mpr
        ⟨_, st, read_composite_yields_iff.mpr ⟨l, hlayout, rfl, rfl⟩, hfollow⟩, hv⟩
  | void =>
    rw [Field.read, pure_bind, Value.follow_iff_of_order? rfl]
    constructor
    · rintro ⟨⟨-, rfl, -⟩, hv⟩
      cases hv
    · rintro ⟨next, hnext, -⟩
      cases hnext
  | string abi =>
    constructor
    · rintro ⟨h, hv⟩
      obtain ⟨value, mid, hvalue, hfollow⟩ := yields_bind.mp h
      obtain ⟨text, -, rfl⟩ := yields_map.mp hvalue
      obtain ⟨-, rfl, -⟩ := (Value.follow_iff_of_order? rfl).mp hfollow
      cases hv
    · rintro ⟨next, hnext, -⟩
      cases hnext

/-! ### One hop -/

theorem find_eq_ok_iff {l : Layout} {name : String} {f : PlacedField} :
    l.find name = .ok f ↔ l.field? name = some f := by
  unfold Layout.find
  cases l.field? name <;> simp

theorem Follows.member {rest : List Hop} (hrest : Follows m order rest) (a : Address) (l : Layout)
    (name : String) :
    (((Value.composite ⟨a, l, order⟩).follow m (.member name :: rest)).Yields st v st' ∧
        v.isScalar = true) ↔
      Walks m order (.composite l a.toNat) (.member name :: rest) st v st' := by
  have hfollow : (Value.composite ⟨a, l, order⟩).follow m (.member name :: rest) =
      liftM (l.find name) >>= fun f =>
        f.field.read m (a.move f.offset) order >>= fun next => next.follow m rest := by
    simp only [Value.follow, Value.hop, Value.toComposite, liftM_ok_bind, CompositeView.get,
      CompositeView.readField, bind_assoc]
  rw [hfollow]
  constructor
  · rintro ⟨h, hv⟩
    obtain ⟨f, mid, hf, h⟩ := yields_bind.mp h
    obtain ⟨hfind, rfl⟩ := yields_liftM.mp hf
    obtain ⟨next, hnext, hwalk⟩ := (hrest.slot f.field _).mp ⟨h, hv⟩
    rw [toNat_move_eq_wrapped] at hnext
    exact .member (find_eq_ok_iff.mp hfind) hnext hwalk
  · intro h
    cases h with
    | member hf hnext hwalk =>
      rw [← toNat_move_eq_wrapped] at hnext
      obtain ⟨h, hv⟩ := (hrest.slot _ _).mpr ⟨_, hnext, hwalk⟩
      exact ⟨yields_bind.mpr ⟨_, _, yields_liftM.mpr ⟨find_eq_ok_iff.mpr hf, rfl⟩, h⟩, hv⟩

theorem checkIndex_eq_ok_iff {view : ArrayView} {index : Nat} :
    view.checkIndex index = .ok () ↔ ∀ n, view.length = some n → index < n := by
  unfold ArrayView.checkIndex
  cases view.length with
  | none => simp
  | some n => simp

/-- The address of an element is that of the flat walk, which neither leaves the array nor the
address space. -/
theorem addressAt_eq_ok_iff {view : ArrayView} {index : Nat} {address : Address} :
    view.addressAt m index = .ok address ↔
      (∀ n, view.length = some n → index < n) ∧
        ∃ stride, m.fieldSize view.element = .ok stride ∧
          view.address.toNat + index * stride < wordLimit ∧
          address.toNat = view.address.toNat + index * stride := by
  unfold ArrayView.addressAt
  rw [bind_eq_ok_iff, ← checkIndex_eq_ok_iff]
  constructor
  · rintro ⟨_, hindex, h⟩
    obtain ⟨stride, hstride, h⟩ := bind_eq_ok_iff.mp h
    by_cases hend : view.address.toNat + index * stride < wordLimit
    · simp only [if_pos hend] at h
      cases h
      exact ⟨hindex, stride, hstride, hend, toNat_ofNat_of_lt hend⟩
    · simp only [if_neg hend] at h
      cases h
  · rintro ⟨hindex, stride, hstride, hend, htoNat⟩
    have haddress : address = UInt64.ofNat (view.address.toNat + index * stride) := by
      rw [← htoNat, UInt64.ofNat_toNat]
    refine ⟨(), hindex, bind_eq_ok_iff.mpr ⟨stride, hstride, ?_⟩⟩
    simp only [if_pos hend, haddress]
    rfl

theorem addressAt_eq {view : ArrayView} {index stride : Nat}
    (hindex : ∀ n, view.length = some n → index < n)
    (hstride : m.fieldSize view.element = .ok stride)
    (hend : view.address.toNat + index * stride < wordLimit) :
    view.addressAt m index = .ok (UInt64.ofNat (view.address.toNat + index * stride)) :=
  addressAt_eq_ok_iff.mpr ⟨hindex, stride, hstride, hend, toNat_ofNat_of_lt hend⟩

theorem Follows.element {rest : List Hop} (hrest : Follows m order rest) (a : Address)
    (element : Field) (length : Option Nat) (index : Nat) :
    (((Value.array ⟨a, element, length, order⟩).follow m (.element index :: rest)).Yields st v st' ∧
        v.isScalar = true) ↔
      Walks m order (.array element length a.toNat) (.element index :: rest) st v st' := by
  have hfollow : (Value.array ⟨a, element, length, order⟩).follow m (.element index :: rest) =
      liftM (ArrayView.addressAt m ⟨a, element, length, order⟩ index) >>= fun address =>
        element.read m address order >>= fun next => next.follow m rest := by
    simp only [Value.follow, Value.hop, Value.toArray, liftM_ok_bind, ArrayView.get, bind_assoc]
  rw [hfollow]
  constructor
  · rintro ⟨h, hv⟩
    obtain ⟨address, mid, hread, h⟩ := yields_bind.mp h
    obtain ⟨haddress, rfl⟩ := yields_liftM.mp hread
    obtain ⟨hindex, stride, hstride, hend, htoNat⟩ := addressAt_eq_ok_iff.mp haddress
    obtain ⟨next, hnext, hwalk⟩ := (hrest.slot element address).mp ⟨h, hv⟩
    rw [htoNat] at hnext
    exact .element hindex hstride hend hnext hwalk
  · intro h
    cases h with
    | @element _ _ _ _ stride next _ _ _ _ hindex hstride hend hnext hwalk =>
      have haddress : ArrayView.addressAt m ⟨a, element, length, order⟩ index =
          .ok (UInt64.ofNat (a.toNat + index * stride)) :=
        addressAt_eq hindex hstride hend
      rw [← toNat_ofNat_of_lt hend] at hnext
      obtain ⟨h, hv⟩ := (hrest.slot element _).mpr ⟨next, hnext, hwalk⟩
      exact ⟨yields_bind.mpr ⟨_, st, yields_liftM.mpr ⟨haddress, rfl⟩, h⟩, hv⟩

/-- The first byte of the target of a pointer is found from its origin and gives back its
origin. -/
theorem behind?_eq (slot : PointerSlot) (target : Address) :
    Place.behind? m target.toNat slot.target =
      (slot.targetSlot m target).toOption.bind fun first =>
        Place.inSlot? m first.toNat slot.target := by
  unfold PointerSlot.targetSlot
  cases slot.target with
  | composite type =>
    show (m.layout type).toOption.map (fun l => Place.composite l target.toNat) =
      (m.layout type >>= fun l => .ok (target.move l.start)).toOption.bind fun first =>
        (m.layout type).toOption.map fun l => .composite l (wrapped (first.toNat - l.start))
    cases m.layout type with
    | error e => rfl
    | ok l =>
      have horigin : wrapped ((target.move l.start).toNat - l.start) = target.toNat := by
        rw [Int.sub_eq_add_neg, ← toNat_move_eq_wrapped, Address.move_move_neg]
      show some (Place.composite l target.toNat) = some (Place.composite l (wrapped _))
      rw [horigin]
  | _ => rfl

theorem length_of_readExactly {a : Address} {n : Nat} {bytes : Bytes}
    (h : (m.readExactly a n).Yields st bytes st') : bytes.length = n := by
  obtain ⟨data, mid, -, h⟩ := yields_bind.mp h
  by_cases hlength : data.length = n
  · simp only [if_pos hlength, yields_pure] at h
    exact h.1 ▸ hlength
  · simp only [if_neg hlength, yields_throw] at h

/-- A pointer is followed by loading its word, which may not be zero. -/
theorem follow_pointer_yields_iff {slot : PointerSlot} {target : Address} {mid : σ} :
    (slot.follow m).Yields st target mid ↔
      ∃ bytes, (m.readExactly slot.address m.platform.pointerSize).Yields st bytes mid ∧
        target.toNat = wordNumber m.platform slot.order bytes ∧ target.toNat ≠ 0 := by
  have hsize := m.platform.pointerSize_le
  have hword : ∀ {bytes}, (m.readExactly slot.address m.platform.pointerSize).Yields st bytes mid →
      (wordOfBytes bytes (slot.order.isBigEndian m.platform)).toNat =
        wordNumber m.platform slot.order bytes := fun h =>
    toNat_wordOfBytes (length_of_readExactly h ▸ hsize) _
  have hzero : ∀ w : UInt64, w = 0 ↔ w.toNat = 0 := fun w => UInt64.toNat_inj.symm
  have hfollow : slot.follow m =
      m.readWord slot.address slot.order >>= fun w =>
        if w = 0 then throw (.nullPointer slot.address) else return w := rfl
  rw [hfollow, Port.readWord_eq, yields_bind]
  constructor
  · rintro ⟨w, t, hread, h⟩
    obtain ⟨bytes, hbytes, rfl⟩ := yields_map.mp hread
    split at h
    · exact absurd h yields_throw
    next hne =>
      obtain ⟨rfl, rfl⟩ := yields_pure.mp h
      exact ⟨bytes, hbytes, hword hbytes, fun h0 => hne ((hzero _).mpr h0)⟩
  · rintro ⟨bytes, hbytes, htarget, hne⟩
    have heq : wordOfBytes bytes (slot.order.isBigEndian m.platform) = target :=
      UInt64.toNat_inj.mp ((hword hbytes).trans htarget.symm)
    refine ⟨target, mid, yields_map.mpr ⟨bytes, hbytes, heq⟩, ?_⟩
    rw [if_neg fun h => hne ((hzero _).mp h)]
    exact yields_pure.mpr ⟨rfl, rfl⟩

theorem Follows.target {rest : List Hop} (hrest : Follows m order rest) (a : Address)
    (target : Field) :
    (((Value.pointer ⟨a, target, order⟩).follow m (.target :: rest)).Yields st v st' ∧
        v.isScalar = true) ↔
      Walks m order (.pointer target a.toNat) (.target :: rest) st v st' := by
  have hfollow : (Value.pointer ⟨a, target, order⟩).follow m (.target :: rest) =
      PointerSlot.follow m ⟨a, target, order⟩ >>= fun w =>
        liftM (PointerSlot.targetSlot m ⟨a, target, order⟩ w) >>= fun first =>
          target.read m first order >>= fun next => next.follow m rest := by
    simp only [Value.follow, Value.hop, Value.toPointer, liftM_ok_bind, PointerSlot.get, bind_assoc]
  rw [hfollow]
  constructor
  · rintro ⟨h, hv⟩
    obtain ⟨w, mid, hw, h⟩ := yields_bind.mp h
    obtain ⟨first, _, hlift, h⟩ := yields_bind.mp h
    obtain ⟨hfirst, rfl⟩ := yields_liftM.mp hlift
    obtain ⟨bytes, hbytes, hnumber, hne⟩ := follow_pointer_yields_iff.mp hw
    obtain ⟨next, hnext, hwalk⟩ := (hrest.slot target first).mp ⟨h, hv⟩
    have hbehind : Place.behind? m w.toNat target = some next := by
      rw [behind?_eq ⟨a, target, order⟩ w, hfirst]
      exact hnext
    rw [hnumber] at hbehind hne
    exact .target (by rwa [UInt64.ofNat_toNat]) hne hbehind hwalk
  · intro h
    cases h with
    | @target _ _ bytes next _ _ mid _ _ hload hne hnext hwalk =>
      rw [UInt64.ofNat_toNat] at hload
      have hsize := m.platform.pointerSize_le
      have hnumber := toNat_wordOfBytes (length_of_readExactly hload ▸ hsize)
        (order.isBigEndian m.platform)
      change _ = wordNumber m.platform order bytes at hnumber
      rw [← hnumber] at hne hnext
      rw [behind?_eq ⟨a, target, order⟩] at hnext
      obtain ⟨first, hfirst, hnext⟩ := Option.bind_eq_some_iff.mp hnext
      obtain ⟨h, hv⟩ := (hrest.slot target first).mpr ⟨next, hnext, hwalk⟩
      refine ⟨yields_bind.mpr ⟨_, mid,
        follow_pointer_yields_iff.mpr ⟨bytes, hload, hnumber, hne⟩, ?_⟩, hv⟩
      exact yields_bind.mpr
        ⟨first, mid, yields_liftM.mpr ⟨toOption_eq_some_iff.mp hfirst, rfl⟩, h⟩

/-! ### Whole paths -/

theorem follows (m : Space σ) (order : ByteOrder) (path : List Hop) : Follows m order path := by
  induction path with
  | nil =>
    intro value place st v st' hshows
    constructor
    · rintro ⟨h, hv⟩
      obtain ⟨rfl, rfl⟩ := yields_pure.mp h
      cases hshows <;> cases hv
    · intro h
      cases hshows <;> cases h
  | cons hop rest ih =>
    intro value place st v st' hshows
    cases hshows with
    | composite a l =>
      cases hop with
      | member name => exact ih.member a l name
      | element | target => exact iff_of_false (fun h => Value.admits_of_follow h.1) nofun
    | array a element length =>
      cases hop with
      | element index => exact ih.element a element length index
      | member | target => exact iff_of_false (fun h => Value.admits_of_follow h.1) nofun
    | pointer a target =>
      cases hop with
      | target => exact ih.target a target
      | member | element => exact iff_of_false (fun h => Value.admits_of_follow h.1) nofun

/-! ### Byte orders -/

theorem order?_of_read {field : Field} {a : Address} {value : Value} {o : ByteOrder}
    (h : (field.read m a order).Yields st value st') (hvalue : value.order? = some o) :
    o = order := by
  cases field with
  | scalar kind =>
    rw [Field.read, ScalarKind.read_eq] at h
    obtain ⟨bytes, -, rfl⟩ := yields_map.mp h
    rw [Value.order?_of_isScalar (isScalar_decode ..)] at hvalue
    cases hvalue
  | composite type =>
    obtain ⟨l, -, rfl, -⟩ := read_composite_yields_iff.mp h
    exact (Option.some.inj hvalue).symm
  | string abi =>
    obtain ⟨text, -, rfl⟩ := yields_map.mp h
    cases hvalue
  | void | array | pointer | fill =>
    obtain ⟨rfl, -⟩ := yields_pure.mp h
    cases hvalue
    try rfl

/-- A view that is reached in one hop shows its part in the byte order of the view before. -/
theorem order?_of_hop {value next : Value} {hop : Hop} {o : ByteOrder}
    (h : (value.hop m hop).Yields st next st') (hnext : next.order? = some o) :
    value.order? = some o := by
  have hadmits := Value.admits_of_hop h
  cases value with
  | composite c =>
    cases hop with
    | member name =>
      obtain ⟨f, mid, -, hread⟩ := yields_bind.mp (show (c.get m name).Yields st next st' from h)
      rw [order?_of_read hread hnext, Value.order?]
    | element | target => cases hadmits
  | array view =>
    cases hop with
    | element index =>
      obtain ⟨a, mid, -, hread⟩ :=
        yields_bind.mp (show (view.get m index).Yields st next st' from h)
      rw [order?_of_read hread hnext, Value.order?]
    | member | target => cases hadmits
  | pointer slot =>
    cases hop with
    | target =>
      obtain ⟨w, mid, -, h⟩ := yields_bind.mp (show (slot.get m).Yields st next st' from h)
      obtain ⟨first, mid', -, hread⟩ := yields_bind.mp h
      rw [order?_of_read hread hnext, Value.order?]
    | member | element => cases hadmits
  | _ => cases hop <;> cases hadmits

theorem order?_of_follow {value : Value} {path : List Hop} {o : ByteOrder}
    (h : (value.follow m path).Yields st v st') (hv : v.order? = some o) :
    value.order? = some o := by
  induction path generalizing value st with
  | nil =>
    obtain ⟨rfl, -⟩ := yields_pure.mp h
    exact hv
  | cons hop rest ih =>
    obtain ⟨next, mid, hhop, hrest⟩ := yields_bind.mp h
    exact order?_of_hop hhop (ih hrest)

/-! ### The walk from a composite -/

/-- From a composite, views lead to a scalar exactly if the walk on addresses leads to it.  All
views on the way are in the byte order of the composite. -/
theorem CompositeView.follow_yields_iff (m : Space σ) (c : CompositeView) (path : List Hop)
    (st : σ) (v : Value) (st' : σ) :
    (((Value.composite c).follow m path).Yields st v st' ∧ v.isScalar = true ↔
      Walks m c.order (.composite c.layout c.address.toNat) path st v st') ∧
    ∀ o, ((Value.composite c).follow m path).Yields st v st' → v.order? = some o →
      o = c.order := by
  refine ⟨follows m c.order path (.composite c.address c.layout), fun o h hv => ?_⟩
  exact (Option.some.inj (order?_of_follow h hv)).symm

/-- Links with an origin behind their first byte, and in each of them two parts with one. -/
def linkSchema : Schema :=
  { declared := [
      ⟨"Part", .struct, some
        { fields := [("kind", .scalar .u16), ("length", .scalar .u32)], origin := some "length" }⟩,
      ⟨"Link", .struct, some
        { fields := [("tag", .scalar .u8), ("next", .pointer (.composite (.declared 1))),
            ("parts", .array (.composite (.declared 0)) (some 2))]
          origin := some "next" }⟩] }

def linkLayout : Layout :=
  { name := "Link", kind := .struct, platform := .host, size := 32, alignment := 8, start := -1
    fields := [⟨"tag", .scalar .u8, -1, 1, 1⟩,
      ⟨"next", .pointer (.composite (.declared 1)), 0, 8, 8⟩,
      ⟨"parts", .array (.composite (.declared 0)) (some 2), 8, 16, 4⟩] }

/-- Two links in a big-endian memory.  The origin of the first one is at 4104, and its pointer
holds the origin 4136 of the second one. -/
def linkBuffer : Buffer :=
  ⟨4096, List.replicate 14 0 ++ [16, 40] ++ List.replicate 44 0 ++ [1, 2, 0, 0], []⟩

theorem walks_links :
    Walks (Buffer.space .host linkSchema) .big (.composite linkLayout 4104)
      [.member "next", .target, .member "parts", .element 1, .member "length"] linkBuffer
      (.int (Integer.wrap .u32 258)) linkBuffer ∧
    ∃ view : CompositeView,
      ((Value.composite ⟨4104, linkLayout, .big⟩).follow (Buffer.space .host linkSchema)
        [.member "next", .target]).Yields linkBuffer (.composite view) linkBuffer ∧
      view.order = .big := by
  let c : CompositeView := ⟨4104, linkLayout, .big⟩
  have hlength : ((Value.composite c).follow (Buffer.space .host linkSchema)
      [.member "next", .target, .member "parts", .element 1, .member "length"]).Yields linkBuffer
      (.int (Integer.wrap .u32 258)) linkBuffer := by
    decide +kernel
  have hnext : ((Value.composite c).follow (Buffer.space .host linkSchema)
      [.member "next", .target]).Yields linkBuffer
      (.composite ⟨4136, linkLayout, .big⟩) linkBuffer := by
    decide +kernel
  exact ⟨(c.follow_yields_iff _ _ _ _ _).1.mp ⟨hlength, rfl⟩, _, hnext,
    (c.follow_yields_iff _ _ _ _ _).2 _ hnext rfl⟩

end TypedMemory
