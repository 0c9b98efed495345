import TypedMemory.Proofs.Layout.Extent
import TypedMemory.Proofs.Layout.Order
import TypedMemory.Proofs.Value.Slot
import TypedMemory.View.Access

/-!
# Structs as records

The plain members of a struct, those that hold an integer, a truth value or an
address, are cells of a record.  A cell is assigned by storing the bytes of a value
(`CompositeView.set_yields_iff`), which lie apart from those of all other members
(`IsRecord.apart`).  So after any assignments each cell has the last value that it
was given (`CompositeView.content_after_assignments`).
-/

namespace TypedMemory

open Access Buffer

/-! ### Plain members -/

/-- The kind of scalar that holds an integer, a truth value or an address. -/
def Field.plainKind? : Field → Option ScalarKind
  | scalar kind => if kind.isFloat then none else some kind
  | pointer _ => some .usize
  | _ => none

/-- The field is plain, and the value is no pointer slot for a pointer. -/
structure Field.Assignable (field : Field) (v : Value) : Prop where
  plain : field.plainKind?.isSome
  no_slot : ∀ target, field = .pointer target → ∀ slot, v ≠ .pointer slot

namespace Field

variable {field : Field} {kind : ScalarKind} {s : Schema} {p : Platform}

theorem plainKind?_cases (h : field.plainKind? = some kind) :
    (field = .scalar kind ∧ kind.isFloat = false) ∨
      ∃ target, field = .pointer target ∧ kind = .usize := by
  cases field with
  | scalar other =>
    change (if other.isFloat then none else some other) = some kind at h
    split at h
    next => cases h
    next hfloat =>
      cases h
      exact Or.inl ⟨rfl, Bool.eq_false_iff.mpr hfloat⟩
  | pointer target =>
    cases h
    exact Or.inr ⟨target, rfl, rfl⟩
  | _ => cases h

theorem isFloat_of_plainKind? (h : field.plainKind? = some kind) : kind.isFloat = false := by
  rcases plainKind?_cases h with ⟨-, hfloat⟩ | ⟨target, -, rfl⟩
  · exact hfloat
  · rfl

theorem size_of_plainKind? (h : field.plainKind? = some kind) :
    field.size s p = .ok (kind.sizeOn p) := by
  rcases plainKind?_cases h with ⟨rfl, -⟩ | ⟨target, rfl, rfl⟩ <;> rfl

theorem isUnsized_of_plainKind? (h : field.plainKind? = some kind) :
    field.isUnsized = false := by
  rcases plainKind?_cases h with ⟨rfl, -⟩ | ⟨target, rfl, -⟩ <;> rfl

variable {σ : Type} {m : Space σ} {a : Address} {v : Value} {order : ByteOrder}

/-- The integer for a pointer is refused, or stored as one of its width. -/
theorem write_pointer_eq (target : Field) (hv : ∀ slot, v ≠ .pointer slot) :
    ∃ image : Except Error Bytes,
      image.toOption = (ScalarKind.usize.encode m.platform order v).toOption ∧
      (pointer target).write m a v order = liftM image >>= m.writeBytes a := by
  have htarget : v.pointerTarget m m = v.asInt?.elim (throw (v.mismatch "pointer")) fun n =>
      if 0 ≤ n ∧ n < wordLimit then return UInt64.ofInt n
      else throw (.valueOutOfRange n m.platform.pointerSize) := by
    cases v with
    | pointer slot => exact absurd rfl (hv slot)
    | _ => rfl
  have hwrite : (pointer target).write m a v order =
      v.pointerTarget m m >>= fun w => m.writeWord a w order := rfl
  rw [hwrite, htarget]
  cases hn : v.asInt? with
  | none =>
    refine ⟨.error (v.mismatch "pointer"), ?_, rfl⟩
    unfold ScalarKind.encode
    simp only [ScalarKind.encoding, hn]
    rfl
  | some n =>
    -- the address is written as the number of a scalar
    have hnumber : ScalarKind.usize.writeNumber m.toPort a n order =
        (if 0 ≤ n ∧ n < wordLimit then return UInt64.ofInt n
          else throw (.valueOutOfRange n m.platform.pointerSize)) >>=
        fun w => m.writeWord a w order := by
      have hrange := IntType.isSome_ofInt?_iff .u64 n
      unfold ScalarKind.writeNumber
      cases hword : Integer.ofInt? .u64 n with
      | some _ =>
        have hin : 0 ≤ n ∧ n < wordLimit := hrange.mp (hword ▸ rfl)
        rw [if_pos hin]
        rfl
      | none =>
        have hout : ¬ (0 ≤ n ∧ n < wordLimit) := fun hin => by
          have hsome := hrange.mpr hin
          rw [hword] at hsome
          cases hsome
        rw [if_neg hout]
        rfl
    refine ⟨ScalarKind.usize.encode m.platform order v, rfl, ?_⟩
    simp only [Option.elim_some, ← hnumber, ScalarKind.writeNumber_eq, ScalarKind.encode,
      ScalarKind.encoding, hn]
    split <;> rfl

/-- A plain field is written by storing bytes, which are those of a scalar. -/
theorem write_plain_eq (hkind : field.plainKind? = some kind) (hv : field.Assignable v)
    (m : Space σ) (a : Address) (order : ByteOrder) :
    ∃ image : Except Error Bytes,
      image.toOption = (kind.encode m.platform order v).toOption ∧
      field.write m a v order = liftM image >>= m.writeBytes a := by
  rcases plainKind?_cases hkind with ⟨rfl, -⟩ | ⟨target, rfl, rfl⟩
  · exact ⟨_, rfl, kind.write_eq _ _ _ _⟩
  · exact write_pointer_eq target (hv.no_slot target rfl)

end Field

/-- The value itself, or the stored address for a pointer. -/
def Value.content {σ : Type} (m : Space σ) : Value → Access σ Value
  | .pointer slot => .word <$> slot.targetAddress m
  | v => return v

/-- The content of a plain field is that of its bytes. -/
theorem Field.content_yields {field : Field} {kind : ScalarKind} {p : Platform} {s : Schema}
    {b : Buffer} {a : Address} {order : ByteOrder} {data : Bytes}
    (hkind : field.plainKind? = some kind) (hlength : data.length = kind.sizeOn p)
    (hdata : b.Holds a.toNat data) :
    (field.read (space p s) a order >>= Value.content (space p s)).Yields b
      (kind.decode p order data) b := by
  have hread : ((port p).readExactly a (kind.sizeOn p)).Yields b data b :=
    readExactly_yields_iff.mpr ⟨rfl, hlength, hdata⟩
  rcases Field.plainKind?_cases hkind with ⟨rfl, -⟩ | ⟨target, rfl, rfl⟩
  · have hscalar : ((Field.scalar kind).read (space p s) a order).Yields b
        (kind.decode p order data) b :=
      ScalarKind.read_yields hlength hdata
    rw [hscalar.bind_iff]
    unfold Value.content
    split
    next slot hslot => exact absurd hslot (kind.decode_ne_pointer p order data slot)
    next => exact yields_pure.mpr ⟨rfl, rfl⟩
  · have hpointer : ((Field.pointer target).read (space p s) a order).Yields b
        (.pointer ⟨a, target, order⟩) b := rfl
    rw [hpointer.bind_iff]
    have hword : ((port p).readWord a order).Yields b
        (wordOfBytes data (order.isBigEndian p)) b := by
      rw [Port.readWord_eq]
      exact yields_map.mpr ⟨data, hread, rfl⟩
    refine yields_map.mpr ⟨_, hword, ?_⟩
    exact congrArg Value.int (IntType.wrap_congr (toNat_wordOfBytes_emod (by decide) data _))

/-- A plain field among the bytes that a buffer holds. -/
theorem Field.content_yields_part {field : Field} {kind : ScalarKind} {p : Platform} {s : Schema}
    {b : Buffer} {a : Address} {order : ByteOrder} {bytes : Bytes} {base first : Nat}
    (hkind : field.plainKind? = some kind) (hbytes : b.Holds base bytes)
    (haddress : a.toNat = base + first) (hend : first + kind.sizeOn p ≤ bytes.length) :
    (field.read (space p s) a order >>= Value.content (space p s)).Yields b
      (kind.decode p order ((bytes.drop first).take (kind.sizeOn p))) b := by
  have hpart := hbytes.part first (kind.sizeOn p) hend
  rw [← haddress] at hpart
  exact content_yields hkind (length_part hend) hpart

theorem Schema.LaysOut.size_of_plainKind? {p : Platform} {s : Schema} {id : TypeId} {l : Layout}
    {f : PlacedField} {kind : ScalarKind} (h : LaysOut s p id l) (hf : f ∈ l.fields)
    (hkind : f.field.plainKind? = some kind) : f.size = kind.sizeOn p := by
  have hsize := h.size_of_mem_fields hf (Field.isUnsized_of_plainKind? hkind)
  rw [Field.size_of_plainKind? hkind] at hsize
  exact (Except.ok.inj hsize).symm

namespace CompositeView

/-- The value of a member, which is the stored address for a pointer. -/
def content {σ : Type} (m : Space σ) (c : CompositeView) (name : String) : Access σ Value := do
  match ← c.get m name with
  | .pointer slot => .word <$> slot.targetAddress m
  | v => return v

theorem content_eq {σ : Type} {m : Space σ} {c : CompositeView} {name : String} {f : PlacedField}
    (hfind : c.layout.find name = .ok f) :
    c.content m name =
      f.field.read m (c.address.move f.offset) c.order >>= Value.content m := by
  have hcontent : c.content m name =
      liftM (c.layout.find name) >>= fun f => c.readField m f >>= Value.content m := by
    rw [content, get, bind_assoc]
    rfl
  rw [hcontent, hfind, liftM_ok_bind]
  rfl

/-- Where a member starts. -/
def cell (c : CompositeView) (f : PlacedField) : Nat := (c.address.move f.offset).toNat

/-- A struct of which all bytes lie in the buffer. -/
structure IsRecord (p : Platform) (s : Schema) (c : CompositeView) (b : Buffer) : Prop where
  laysOut : ∃ id, s.kind id = .struct ∧ s.layout p id = .ok c.layout
  mapped : b.Mapped c.firstByte.toNat c.layout.size
  limit_le : b.limit ≤ wordLimit

variable {p : Platform} {s : Schema} {c : CompositeView} {b b' : Buffer} {f g : PlacedField}
  {name : String} {v : Value} {kind : ScalarKind}

theorem find_eq_ok {l : Layout} (h : l.find name = .ok f) : f ∈ l.fields ∧ f.name = name := by
  unfold Layout.find Layout.field? at h
  cases hfind : l.fields.find? (·.name == name) with
  | none =>
    rw [hfind] at h
    cases h
  | some found =>
    rw [hfind] at h
    cases h
    exact ⟨List.mem_of_find?_eq_some hfind, by simpa using List.find?_some hfind⟩

/-- A member that is not empty starts at its place among the bytes of the composite. -/
theorem cell_eq_of_laysOut {id : TypeId} (h : Schema.LaysOut s p id c.layout)
    (hend : c.firstByte.toNat + c.layout.size ≤ wordLimit) (hf : f ∈ c.layout.fields)
    (hsize : 0 < f.size) :
    (c.cell f : Int) = c.firstByte.toNat + (f.offset - c.layout.start) := by
  obtain ⟨hlow, hhigh⟩ := h.within hf
  refine Address.toNat_move_of_move ?_ ?_
  · change 0 ≤ (c.firstByte.toNat : Int) + _
    omega
  · change (c.firstByte.toNat : Int) + _ < _
    omega

namespace IsRecord

variable (h : c.IsRecord p s b)

include h

theorem inOrder : c.layout.InOrder := by
  obtain ⟨id, hkind, hl⟩ := h.laysOut
  exact (Schema.layout_eq_ok_iff.mp hl).inOrder hkind

theorem size_eq (hf : f ∈ c.layout.fields) (hkind : f.field.plainKind? = some kind) :
    f.size = kind.sizeOn p := by
  obtain ⟨id, -, hl⟩ := h.laysOut
  exact (Schema.layout_eq_ok_iff.mp hl).size_of_plainKind? hf hkind

theorem cell_eq (hf : f ∈ c.layout.fields) (hsize : 0 < f.size) :
    (c.cell f : Int) = c.firstByte.toNat + (f.offset - c.layout.start) := by
  obtain ⟨id, -, hl⟩ := h.laysOut
  exact cell_eq_of_laysOut (Schema.layout_eq_ok_iff.mp hl)
    (h.mapped.le_limit.trans h.limit_le) hf hsize

theorem mapped_cell (hf : f ∈ c.layout.fields) (hsize : 0 < f.size) :
    b.Mapped (c.cell f) f.size := by
  have hcell := h.cell_eq hf hsize
  have hlow := h.inOrder.start_le f hf
  have hhigh := h.inOrder.le_end f hf
  exact h.mapped.part (by omega) (by omega)

/-- Members of different names do not share bytes. -/
theorem apart (hf : f ∈ c.layout.fields) (hg : g ∈ c.layout.fields) (hname : f.name ≠ g.name)
    {x : Nat} (hx : Within (c.cell f) f.size x) : ¬ Within (c.cell g) g.size x := by
  have hapart := h.inOrder.apart hf hg fun he => hname (he ▸ rfl)
  intro hx'
  unfold Within at hx hx'
  have hcell := h.cell_eq hf (by omega)
  have hcell' := h.cell_eq hg (by omega)
  omega

/-- The struct stays in a buffer of the same region. -/
theorem keeps {changed : Nat → Prop} (hkeeps : b.Keeps b' changed) (hlimit : b'.limit = b.limit) :
    c.IsRecord p s b' :=
  ⟨h.laysOut, hkeeps.mapped h.mapped, hlimit ▸ h.limit_le⟩

/-! ### Assigning a member -/

variable (hfind : c.layout.find name = .ok f) (hkind : f.field.plainKind? = some kind)

include hfind hkind

theorem size_pos : 0 < f.size := by
  rw [h.size_eq (find_eq_ok hfind).1 hkind]
  exact kind.sizeOn_pos p

/-- The bytes of a value fit the member. -/
theorem mapped_encode {data : Bytes} (hdata : kind.encode p c.order v = .ok data) :
    data.length = f.size ∧ b.Mapped (c.cell f) data.length := by
  have hlength := ScalarKind.length_encode hdata
  rw [← h.size_eq (find_eq_ok hfind).1 hkind] at hlength
  refine ⟨hlength, ?_⟩
  rw [hlength]
  exact h.mapped_cell (find_eq_ok hfind).1 (h.size_pos hfind hkind)

/-- An assignment stores the bytes of the value, or fails and changes nothing. -/
theorem eval_set (hv : f.field.Assignable v) :
    (∃ data, kind.encode p c.order v = .ok data ∧
      eval (c.set (space p s) name v) b = (.ok (), b.store (c.cell f) data)) ∨
    (∀ data, kind.encode p c.order v ≠ .ok data) ∧
      ∃ e, eval (c.set (space p s) name v) b = (.error e, b) := by
  obtain ⟨image, himage, hwrite⟩ :=
    Field.write_plain_eq hkind hv (space p s) (c.address.move f.offset) c.order
  have hset : c.set (space p s) name v =
      f.field.write (space p s) (c.address.move f.offset) v c.order := by
    rw [CompositeView.set, CompositeView.assignFrom, hfind]
    rfl
  change image.toOption = (kind.encode p c.order v).toOption at himage
  rw [hset, hwrite]
  cases hencode : kind.encode p c.order v with
  | error e =>
    rw [hencode] at himage
    cases image with
    | error e' => exact Or.inr ⟨nofun, e', rfl⟩
    | ok data => cases himage
  | ok data =>
    rw [hencode] at himage
    cases image with
    | error e' => cases himage
    | ok data' =>
      cases himage
      obtain ⟨-, hmapped⟩ := h.mapped_encode hfind hkind hencode
      exact Or.inl ⟨data, rfl, writeBytes_yields_iff.mpr ⟨hmapped, rfl⟩⟩

/-! ### The content of a member -/

theorem content_yields {data : Bytes} (hlength : data.length = f.size)
    (hdata : b.Holds (c.cell f) data) :
    (c.content (space p s) name).Yields b (kind.decode p c.order data) b := by
  rw [content_eq hfind]
  exact Field.content_yields hkind (hlength.trans (h.size_eq (find_eq_ok hfind).1 hkind)) hdata

end IsRecord

/-- The name is none of the struct, or that of a plain member that the value suits. -/
def Assigns (c : CompositeView) (name : String) (v : Value) : Prop :=
  ∀ f, c.layout.find name = .ok f → f.field.Assignable v

/-- The value is stored in the member of the name, if there is one that can hold it. -/
def Stores (p : Platform) (c : CompositeView) (name : String) (v : Value) (f : PlacedField)
    (data : Bytes) : Prop :=
  c.layout.find name = .ok f ∧ ∃ kind, f.field.plainKind? = some kind ∧
    kind.encode p c.order v = .ok data

theorem Stores.unique {data other : Bytes} (h : c.Stores p name v f data)
    (h' : c.Stores p name v g other) : f = g ∧ data = other := by
  obtain ⟨hfind, kind, hkind, hdata⟩ := h
  obtain ⟨hfind', kind', hkind', hdata'⟩ := h'
  cases hfind.symm.trans hfind'
  cases hkind.symm.trans hkind'
  exact ⟨rfl, Except.ok.inj (hdata.symm.trans hdata')⟩

theorem IsRecord.mapped_stores (h : c.IsRecord p s b) {data : Bytes}
    (hstores : c.Stores p name v f data) :
    f ∈ c.layout.fields ∧ f.name = name ∧ data.length = f.size ∧
      b.Mapped (c.cell f) data.length := by
  obtain ⟨hfind, kind, hkind, hdata⟩ := hstores
  obtain ⟨hf, hname⟩ := find_eq_ok hfind
  exact ⟨hf, hname, h.mapped_encode hfind hkind hdata⟩

theorem IsRecord.set_cases (h : c.IsRecord p s b) (hv : c.Assigns name v) :
    (∃ f data, c.Stores p name v f data ∧
      eval (c.set (space p s) name v) b = (.ok (), b.store (c.cell f) data)) ∨
    (∀ f data, ¬ c.Stores p name v f data) ∧
      ∃ e, eval (c.set (space p s) name v) b = (.error e, b) := by
  cases hfind : c.layout.find name with
  | error e =>
    refine Or.inr ⟨fun f data hstores => ?_, e, ?_⟩
    · cases hfind.symm.trans hstores.1
    · rw [CompositeView.set, CompositeView.assignFrom, hfind]
      rfl
  | ok f =>
    obtain ⟨kind, hkind⟩ := Option.isSome_iff_exists.mp (hv f hfind).plain
    rcases h.eval_set hfind hkind (hv f hfind) with ⟨data, hdata, hset⟩ | ⟨hnone, hset⟩
    · exact Or.inl ⟨f, data, ⟨hfind, kind, hkind, hdata⟩, hset⟩
    · refine Or.inr ⟨?_, hset⟩
      rintro g data ⟨hg, kind', hkind', hdata⟩
      cases hfind.symm.trans hg
      cases hkind.symm.trans hkind'
      exact hnone data hdata

/-! ### Runs of assignments -/

/-- The buffer after an attempt to assign a value, and the last value of each name that
was assigned. -/
def assign (m : Space Buffer) (c : CompositeView) (state : Buffer × (String → Option Value))
    (set : String × Value) : Buffer × (String → Option Value) :=
  match eval (c.set m set.1 set.2) state.1 with
  | (.ok (), b) => (b, Function.update state.2 set.1 (some set.2))
  | (.error _, b) => (b, state.2)

/-- What holds after assignments to a struct of `b`: the values in `stored` are held, and
only their members have changed. -/
structure Tracks (p : Platform) (s : Schema) (c : CompositeView) (b : Buffer)
    (state : Buffer × (String → Option Value)) : Prop where
  limit_eq : state.1.limit = b.limit
  keeps : b.Keeps state.1 fun x => ∃ name f v, state.2 name = some v ∧
    c.layout.find name = .ok f ∧ Within (c.cell f) f.size x
  holds : ∀ name v, state.2 name = some v →
    ∃ f data, c.Stores p name v f data ∧ state.1.Holds (c.cell f) data

variable {state : Buffer × (String → Option Value)}

theorem Tracks.start (b : Buffer) : Tracks p s c b (b, fun _ => none) :=
  ⟨rfl, .refl b _, fun _ _ h => absurd h (Option.some_ne_none _).symm⟩

theorem Tracks.isRecord (h : Tracks p s c b state) (hrecord : c.IsRecord p s b) :
    c.IsRecord p s state.1 :=
  hrecord.keeps h.keeps h.limit_eq

/-- An assignment stores a value, or does nothing. -/
theorem assign_cases (hrecord : c.IsRecord p s state.1) (hv : c.Assigns name v) :
    (∃ f data, c.Stores p name v f data ∧
      c.assign (space p s) state (name, v) =
        (state.1.store (c.cell f) data, Function.update state.2 name (some v))) ∨
    c.assign (space p s) state (name, v) = state := by
  unfold assign
  rcases hrecord.set_cases hv with ⟨f, data, hstores, hset⟩ | ⟨-, e, hset⟩
  · rw [hset]
    exact Or.inl ⟨f, data, hstores, rfl⟩
  · rw [hset]
    exact Or.inr rfl

theorem Tracks.assign (h : Tracks p s c b state) (hrecord : c.IsRecord p s b)
    (hv : c.Assigns name v) : Tracks p s c b (c.assign (space p s) state (name, v)) := by
  have hstate := h.isRecord hrecord
  rcases assign_cases hstate hv with ⟨f, data, hstores, hassign⟩ | hassign
  · rw [hassign]
    obtain ⟨hf, hname, hlength, hmapped⟩ := hstate.mapped_stores hstores
    refine ⟨(limit_store hmapped).trans h.limit_eq, ?_, ?_⟩
    · -- what was assigned before, and this member
      refine Keeps.trans (h.keeps.mono ?_) (keeps_store hmapped ?_)
      · rintro x ⟨other, g, w, hw, hg, hx⟩
        by_cases hother : other = name
        · subst hother
          exact ⟨other, g, v, Function.update_self .., hg, hx⟩
        · exact ⟨other, g, w, (Function.update_of_ne hother ..).trans hw, hg, hx⟩
      · intro x hx
        exact ⟨name, f, v, Function.update_self .., hstores.1, hlength ▸ hx⟩
    · intro other w hw
      simp only at hw
      by_cases hother : other = name
      · subst hother
        rw [Function.update_self] at hw
        cases hw
        exact ⟨f, data, hstores, hmapped.holds_store⟩
      · rw [Function.update_of_ne hother] at hw
        obtain ⟨g, data', hstores', hholds⟩ := h.holds other w hw
        obtain ⟨hg, hname', hlength', -⟩ := hstate.mapped_stores hstores'
        refine ⟨g, data', hstores', ?_⟩
        have hstore : state.1.Keeps (state.1.store (c.cell f) data)
            (Within (c.cell f) data.length) := keeps_store hmapped fun _ hx => hx
        refine hstore.holds hholds fun x hx hin => ?_
        rw [hlength] at hin
        rw [hlength'] at hx
        exact hstate.apart hf hg (by rw [hname, hname']; exact Ne.symm hother) hin hx
  · rw [hassign]
    exact h

theorem Tracks.assignAll (h : Tracks p s c b state) (hrecord : c.IsRecord p s b)
    {sets : List (String × Value)} (hsets : ∀ x ∈ sets, c.Assigns x.1 x.2) :
    Tracks p s c b (sets.foldl (c.assign (space p s)) state) := by
  induction sets generalizing state with
  | nil => exact h
  | cons x rest ih =>
    exact ih (h.assign hrecord (hsets x List.mem_cons_self))
      fun y hy => hsets y (List.mem_cons_of_mem x hy)

/-- A member that was assigned has the value that it was given. -/
theorem Tracks.content_of_some (h : Tracks p s c b state) (hrecord : c.IsRecord p s b)
    (hfind : c.layout.find name = .ok f) (hstored : state.2 name = some v) :
    ∃ w, (c.content (space p s) name).Yields state.1 w state.1 ∧ w.asInt? = v.asInt? ∧
      w.asBool? = v.asBool? := by
  have hstate := h.isRecord hrecord
  obtain ⟨g, data, ⟨hg, kind, hkind, hdata⟩, hholds⟩ := h.holds name v hstored
  cases hfind.symm.trans hg
  have hlength := (hstate.mapped_encode hfind hkind hdata).1
  exact ⟨_, hstate.content_yields hfind hkind hlength hholds,
    ScalarKind.decode_encode (Field.isFloat_of_plainKind? hkind) hdata⟩

/-- A member that was not assigned has the value that it had. -/
theorem Tracks.content_of_none (h : Tracks p s c b state) (hrecord : c.IsRecord p s b)
    (hfind : c.layout.find name = .ok f) (hkind : f.field.plainKind? = some kind)
    (hstored : state.2 name = none) :
    ∃ w, (c.content (space p s) name).Yields b w b ∧
      (c.content (space p s) name).Yields state.1 w state.1 := by
  have hf := (find_eq_ok hfind).1
  obtain ⟨data, hlength, hholds⟩ :=
    (hrecord.mapped_cell hf (hrecord.size_pos hfind hkind)).exists_holds
  have hholds' : state.1.Holds (c.cell f) data := by
    refine h.keeps.holds hholds fun x hx => ?_
    rintro ⟨other, g, w, hw, hg, hx'⟩
    rw [hlength] at hx
    refine hrecord.apart hf (find_eq_ok hg).1 ?_ hx hx'
    rw [(find_eq_ok hfind).2, (find_eq_ok hg).2]
    rintro rfl
    cases hstored.symm.trans hw
  exact ⟨_, hrecord.content_yields hfind hkind hlength hholds,
    (h.isRecord hrecord).content_yields hfind hkind hlength hholds'⟩

/-! ### Assignments to different members -/

theorem IsRecord.set_yields_iff (h : c.IsRecord p s b) (hv : c.Assigns name v) :
    (c.set (space p s) name v).Yields b () b' ↔
      ∃ f data, c.Stores p name v f data ∧ b' = b.store (c.cell f) data := by
  constructor
  · intro hyields
    rcases h.set_cases hv with ⟨f, data, hstores, hset⟩ | ⟨-, e, hset⟩
    · exact ⟨f, data, hstores, (Yields.unique hyields hset).2⟩
    · cases hyields.symm.trans hset
  · rintro ⟨f, data, hstores, rfl⟩
    rcases h.set_cases hv with ⟨g, data', hstores', hset⟩ | ⟨hnone, -⟩
    · obtain ⟨rfl, rfl⟩ := Stores.unique hstores hstores'
      exact hset
    · exact absurd hstores (hnone f data)

/-- An assignment keeps the bytes of all members but its own, whatever comes out. -/
theorem IsRecord.keeps_set (h : c.IsRecord p s b) (hv : c.Assigns name v)
    (hg : g ∈ c.layout.fields) (hname : g.name ≠ name) {x : Nat}
    (hx : Within (c.cell g) g.size x) :
    (eval (c.set (space p s) name v) b).2.byte? x = b.byte? x := by
  rcases h.set_cases hv with ⟨f, data, hstores, hset⟩ | ⟨-, e, hset⟩
  · obtain ⟨hf, hname', hlength, hmapped⟩ := h.mapped_stores hstores
    rw [hset, byte?_store hmapped, if_neg]
    intro hin
    rw [hlength] at hin
    exact h.apart hf hg (by rw [hname']; exact Ne.symm hname) hin hx
  · rw [hset]

theorem IsRecord.set_comm (h : c.IsRecord p s b) {other : String} {w : Value}
    (hv : c.Assigns name v) (hw : c.Assigns other w) (hne : name ≠ other)
    (hyields : (c.set (space p s) name v >>= fun _ => c.set (space p s) other w).Yields b () b') :
    (c.set (space p s) other w >>= fun _ => c.set (space p s) name v).Yields b () b' := by
  obtain ⟨_, b₁, hfirst, hsecond⟩ := yields_bind.mp hyields
  obtain ⟨f, data, hstores, rfl⟩ := (h.set_yields_iff hv).mp hfirst
  obtain ⟨hf, hname, hlength, hmapped⟩ := h.mapped_stores hstores
  have h₁ := h.keeps (keeps_store hmapped fun _ hx => hx) (limit_store hmapped)
  obtain ⟨g, more, hstores', rfl⟩ := (h₁.set_yields_iff hw).mp hsecond
  obtain ⟨hg, hname', hlength', hmapped'⟩ := h.mapped_stores hstores'
  have h₂ := h.keeps (keeps_store hmapped' fun _ hx => hx) (limit_store hmapped')
  refine yields_bind.mpr ⟨(), _, (h.set_yields_iff hw).mpr ⟨g, more, hstores', rfl⟩,
    (h₂.set_yields_iff hv).mpr ⟨f, data, hstores, store_comm hmapped hmapped' ?_⟩⟩
  intro x hx
  rw [hlength] at hx
  rw [hlength']
  exact h.apart hf hg (by rwa [hname, hname']) hx

/-- A struct is a record of its plain members.  After any assignments, some of which may
fail, a member has the last value that it was given, or the one it had.  No assignment
changes a byte of another member, and assignments to two members can change places. -/
theorem content_after_assignments {id : TypeId} {bytes : Bytes} {sets : List (String × Value)}
    (hkind : s.kind id = .struct) (hl : s.layout p id = .ok c.layout) (hlimit : b.limit ≤ wordLimit)
    (himage : (c.readImage (space p s)).Yields b bytes b)
    (hsets : ∀ x ∈ sets, c.Assigns x.1 x.2) :
    let after := sets.foldl (c.assign (space p s)) (b, fun _ => none)
    (∀ name f, c.layout.find name = .ok f → f.field.plainKind?.isSome →
      match after.2 name with
      | some v => ∃ w, (c.content (space p s) name).Yields after.1 w after.1 ∧
          w.asInt? = v.asInt? ∧ w.asBool? = v.asBool?
      | none => ∃ w, (c.content (space p s) name).Yields b w b ∧
          (c.content (space p s) name).Yields after.1 w after.1) ∧
    (∀ name v, c.Assigns name v → ∀ g ∈ c.layout.fields, g.name ≠ name →
      ∀ x, Within (c.cell g) g.size x →
        (eval (c.set (space p s) name v) after.1).2.byte? x = after.1.byte? x) ∧
    ∀ name v other w b', c.Assigns name v → c.Assigns other w → name ≠ other →
      ((c.set (space p s) name v >>= fun _ => c.set (space p s) other w).Yields after.1 () b' ↔
        (c.set (space p s) other w >>= fun _ => c.set (space p s) name v).Yields after.1 () b') := by
  obtain ⟨-, hlength, hholds⟩ := readBytes_yields_iff.mp himage
  have hrecord : c.IsRecord p s b := ⟨⟨id, hkind, hl⟩, hlength ▸ hholds.mapped, hlimit⟩
  have htracks := (Tracks.start (p := p) (s := s) (c := c) b).assignAll hrecord hsets
  have hafter := htracks.isRecord hrecord
  refine ⟨fun name f hfind hplain => ?_, fun name v hv g hg hname x hx => ?_, ?_⟩
  · split
    next v hstored => exact htracks.content_of_some hrecord hfind hstored
    next hstored =>
      obtain ⟨kind, hkind⟩ := Option.isSome_iff_exists.mp hplain
      exact htracks.content_of_none hrecord hfind hkind hstored
  · exact hafter.keeps_set hv hg hname hx
  · intro name v other w b' hv hw hne
    exact ⟨hafter.set_comm hv hw hne, hafter.set_comm hw hv hne.symm⟩

/-- A struct with a base, a table of functions and members before its origin. -/
def nodeSchema : Schema :=
  { declared := [
      ⟨"Base", .struct, some { fields := [("id", .scalar .u16)] }⟩,
      ⟨"Node", .struct, some
        { base := some (.declared 0)
          fields := [("size", .scalar .i32), ("next", .pointer (.composite (.declared 1))),
            ("live", .scalar .bool)]
          hasVtable := true
          origin := some "next" }⟩] }

/-- The layout of the node. -/
def nodeLayout : Layout :=
  { name := "Node", kind := .struct, platform := .host, size := 24, alignment := 8, start := -14
    fields := [⟨vtableName, .pointer .void, -14, 8, 8⟩, ⟨"id", .scalar .u16, -6, 2, 2⟩,
      ⟨"size", .scalar .i32, -4, 4, 4⟩, ⟨"next", .pointer (.composite (.declared 1)), 0, 8, 8⟩,
      ⟨"live", .scalar .bool, 8, 1, 1⟩] }

/-- A node of which the first byte is at the address 4096. -/
def nodeView : CompositeView := ⟨4110, nodeLayout, .big⟩

/-- Assignments to the node, of which the fourth and the last fail. -/
def nodeSets : List (String × Value) :=
  [("size", .int (.wrap .i64 (-5))), ("next", .word 4110), ("live", .bool true),
    ("id", .int (.wrap .u32 70000)), ("size", .int (.wrap .u8 7)), ("live", .text "no")]

theorem content_after_nodeSets :
    let after := nodeSets.foldl (nodeView.assign (space .host nodeSchema))
      (.zeroed 4096 32, fun _ => none)
    ∃ w, (nodeView.content (space .host nodeSchema) "size").Yields after.1 w after.1 ∧
      w.asInt? = some 7 := by
  have hl : nodeSchema.layout .host (.declared 1) = .ok nodeLayout := by decide +kernel
  have himage : (nodeView.readImage (space .host nodeSchema)).Yields (.zeroed 4096 32)
      (List.replicate 24 0) (.zeroed 4096 32) := by
    decide +kernel
  have hplain : ∀ f ∈ nodeLayout.fields, f.field.plainKind?.isSome := by decide
  have hsets : ∀ x ∈ nodeSets, nodeView.Assigns x.1 x.2 := by
    intro x hx f hfind
    refine ⟨hplain f (find_eq_ok hfind).1, fun _ _ slot => ?_⟩
    simp only [nodeSets, List.mem_cons, List.not_mem_nil, or_false] at hx
    rcases hx with rfl | rfl | rfl | rfl | rfl | rfl <;> exact nofun
  obtain ⟨hcontent, -, -⟩ := content_after_assignments rfl hl (by decide) himage hsets
  have hsize := hcontent "size" ⟨"size", .scalar .i32, -4, 4, 4⟩ (by decide +kernel) (by decide)
  have hstored : (nodeSets.foldl (nodeView.assign (space .host nodeSchema))
      (.zeroed 4096 32, fun _ => none)).2 "size" = some (.int (.wrap .u8 7)) := by
    decide +kernel
  rw [hstored] at hsize
  obtain ⟨w, hyields, hint, -⟩ := hsize
  exact ⟨w, hyields, hint⟩

end CompositeView

end TypedMemory
