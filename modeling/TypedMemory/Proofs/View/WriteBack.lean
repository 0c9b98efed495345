import TypedMemory.Proofs.View.Assignment

/-!
# Writing back what was read

Reading a field and writing the value to the same place leaves every byte as it was
(`Field.write_read`).  There are three reasons for this.

* Void, arrays and padding are not written at all.
* An integer is decoded from its bytes, and these are the only ones that it is encoded in.
* A pointer or a composite is read as a view, which reads its bytes when it is written.  The
  first byte of the view of a composite is the slot that it came from, wherever the origin is.

Truth values and floating-point numbers are left out: all bytes but zero stand for the same
truth value, and a number is rounded on its way to single precision.
-/

namespace TypedMemory

open Access Buffer

variable {p : Platform} {s : Schema} {b b' : Buffer} {a : Address} {order : ByteOrder} {v : Value}

namespace Buffer

/-- The access changes nothing, and it succeeds where the `n` bytes from `a` on can be read. -/
def LeavesAt (b : Buffer) (a : Address) (n : Nat) (x : Access Buffer Unit) : Prop :=
  (eval x b).2 = b ∧ (b.Mapped a.toNat n → x.Yields b () b)

theorem Holds.writeBytes_yields {data : Bytes} (h : b.Holds a.toNat data) :
    (writeBytes a data).Yields b () b :=
  writeBytes_yields_iff.mpr ⟨h.mapped, h.store_eq_self.symm⟩

/-- What is read from the range is stored there again. -/
theorem leavesAt_of_readOnly {α : Type} {x : Access Buffer α} {f : α → Access Buffer Unit} {n : Nat}
    (hx : ReadOnly x) (hread : b.Mapped a.toNat n → ∃ r, x.Yields b r b)
    (hf : ∀ r, x.Yields b r b → (f r).Yields b () b) : b.LeavesAt a n (x >>= f) := by
  refine ⟨?_, fun hmapped => ?_⟩
  · rw [hx.eval_bind]
    cases hresult : (eval x b).1 with
    | error e => rfl
    | ok r => exact congrArg Prod.snd (hf r (hx.yields hresult))
  · obtain ⟨r, hr⟩ := hread hmapped
    exact hr.bind_iff.mpr (hf r hr)

end Buffer

namespace Field

/-- Fields of which a value is written as the bytes that it was read from, or not at all. -/
def IsFaithful : Field → Prop
  | scalar kind => kind.intType?.isSome
  | string _ => False
  | void | array .. | pointer _ | composite _ | fill _ => True

/-- Fields that are never written. -/
def IsInert : Field → Prop
  | void | array .. | fill _ => True
  | scalar _ | pointer _ | composite _ | string _ => False

theorem readOnly_read {field : Field} (hfield : field.IsFaithful) :
    ReadOnly (field.read (space p s) a order) := by
  cases field with
  | void | array | pointer | fill => exact .pure _
  | scalar kind =>
    show ReadOnly (kind.read (port p) a order)
    rw [kind.read_eq]
    exact (readOnly_readExactly a _).map
  | composite type => exact (ReadOnly.liftM _).bind fun l => .pure _
  | string abi => exact hfield.elim

/-- The bytes of an integer are stored again. -/
theorem leavesAt_scalar {kind : ScalarKind} {t : IntType} (ht : kind.intType? = some t)
    (hread : (kind.read (port p) a order).Yields b v b') :
    b.LeavesAt a (kind.sizeOn p) (kind.write (port p) a v order) := by
  rw [kind.read_eq] at hread
  obtain ⟨data, hdata, rfl⟩ := yields_map.mp hread
  obtain ⟨-, hlength, hholds⟩ := readExactly_yields_iff.mp hdata
  have hencode : kind.encode p order (kind.decode p order data) = .ok data :=
    ScalarKind.encode_decode ht hlength
  have hwrite : (kind.write (port p) a (kind.decode p order data) order).Yields b () b := by
    rw [kind.write_eq]
    show (liftM (kind.encode p order (kind.decode p order data)) >>= writeBytes a).Yields b () b
    rw [hencode, liftM_ok_bind]
    exact hholds.writeBytes_yields
  exact ⟨congrArg Prod.snd hwrite, fun _ => hwrite⟩

/-- The word of a pointer is loaded and stored again. -/
theorem leavesAt_pointer (a : Address) (target : Field) (order : ByteOrder) (b : Buffer) :
    b.LeavesAt a p.pointerSize
      ((pointer target).write (space p s) a (.pointer ⟨a, target, order⟩) order) := by
  show b.LeavesAt a p.pointerSize
    ((port p).readWord a order >>= fun w => (port p).writeWord a w order)
  refine leavesAt_of_readOnly (readOnly_readWord a order) ?_ ?_
  · intro hmapped
    obtain ⟨w, hw⟩ := hmapped.exists_holdsWord order
    exact ⟨w, readWord_yields_iff.mpr ⟨rfl, hw⟩⟩
  · intro w hw
    obtain ⟨-, hword⟩ := readWord_yields_iff.mp hw
    exact writeWord_yields_iff.mpr ⟨hword.fits, hword.mapped, hword.holds.store_eq_self.symm⟩

/-- The bytes of a composite are read from where they are stored. -/
theorem leavesAt_composite {type : TypeId} {l : Layout} (hl : s.layout p type = .ok l) (a : Address)
    (order : ByteOrder) (b : Buffer) :
    b.LeavesAt a l.size
      ((composite type).write (space p s) a (.composite (CompositeView.ofSlot a l order)) order) := by
  have hwrite : (composite type).write (space p s) a
        (.composite (CompositeView.ofSlot a l order)) order =
      readBytes (CompositeView.ofSlot a l order).firstByte l.size >>= writeBytes a :=
    write_composite_eq hl a order
  rw [hwrite, CompositeView.firstByte_ofSlot]
  refine leavesAt_of_readOnly (readOnly_readBytes a l.size) ?_ ?_
  · intro hmapped
    obtain ⟨data, hlength, hholds⟩ := hmapped.exists_holds
    exact ⟨data, readBytes_yields_iff.mpr ⟨rfl, hlength, hholds⟩⟩
  · intro data hread
    exact (readBytes_yields_iff.mp hread).2.2.writeBytes_yields

/-- A field is not written, or what was read from it is stored again. -/
theorem leavesAt_of_read {field : Field} (hfield : field.IsFaithful) (hinert : ¬ field.IsInert)
    (hread : (field.read (space p s) a order).Yields b v b') :
    ∃ n, field.size s p = .ok n ∧ b.LeavesAt a n (field.write (space p s) a v order) := by
  cases field with
  | void | array | fill => exact absurd trivial hinert
  | scalar kind =>
    obtain ⟨t, ht⟩ := Option.isSome_iff_exists.mp hfield
    exact ⟨kind.sizeOn p, rfl, leavesAt_scalar ht hread⟩
  | pointer target =>
    obtain ⟨rfl, -⟩ := yields_pure.mp hread
    exact ⟨p.pointerSize, rfl, leavesAt_pointer a target order b⟩
  | composite type =>
    obtain ⟨l, hl, rfl, -⟩ := read_composite_yields_iff.mp hread
    exact ⟨l.size, map_eq_ok_iff.mpr ⟨l, hl, rfl⟩, leavesAt_composite hl a order b⟩
  | string abi => exact hfield.elim

theorem write_of_isInert {field : Field} (hinert : field.IsInert) (a : Address) (v : Value)
    (order : ByteOrder) (b : Buffer) : (field.write (space p s) a v order).Yields b () b := by
  cases field with
  | void | array | fill => exact yields_pure.mpr ⟨rfl, rfl⟩
  | scalar | pointer | composite | string => exact hinert.elim

/-- Reading changes nothing, and writing the value back to where it was read changes nothing.
The write succeeds for a field that is never written, and else where the bytes of the field can
be read. -/
theorem write_read {field : Field} (hfield : field.IsFaithful)
    (hread : (field.read (space p s) a order).Yields b v b') :
    b' = b ∧ (eval (field.write (space p s) a v order) b).2 = b ∧
    (field.IsInert → (field.write (space p s) a v order).Yields b () b) ∧
    ∀ n bytes b'', field.size s p = .ok n → (readBytes a n).Yields b bytes b'' →
      (field.write (space p s) a v order).Yields b () b := by
  have hsame : b' = b := (readOnly_read hfield).eq_of_yields hread
  by_cases hinert : field.IsInert
  · have hwrite : (field.write (space p s) a v order).Yields b () b :=
      write_of_isInert hinert a v order b
    exact ⟨hsame, congrArg Prod.snd hwrite, fun _ => hwrite, fun _ _ _ _ _ => hwrite⟩
  · obtain ⟨n, hn, hkept, hwrite⟩ := leavesAt_of_read hfield hinert hread
    refine ⟨hsame, hkept, fun h => absurd h hinert, ?_⟩
    intro n' bytes b'' hn' hbytes
    cases hn.symm.trans hn'
    obtain ⟨-, rfl, hholds⟩ := readBytes_yields_iff.mp hbytes
    exact hwrite hholds.mapped

/-- The first of the links is written to its own slot.  Its origin is behind its first byte. -/
theorem write_read_link :
    ∃ v, ((composite (.declared 1)).read (space .host linkSchema) 4103 .big).Yields linkBuffer v
        linkBuffer ∧
      ((composite (.declared 1)).write (space .host linkSchema) 4103 v .big).Yields linkBuffer ()
        linkBuffer := by
  have hread : ((composite (.declared 1)).read (space .host linkSchema) 4103 .big).Yields linkBuffer
      (.composite ⟨4104, linkLayout, .big⟩) linkBuffer := by
    decide +kernel
  have hsize : (composite (.declared 1)).size linkSchema .host = .ok 32 := by decide +kernel
  have hbytes : (readBytes 4103 32).Yields linkBuffer ((linkBuffer.memory.drop 7).take 32)
      linkBuffer := by
    decide +kernel
  have hfaithful : (composite (.declared 1)).IsFaithful := trivial
  exact ⟨_, hread, (write_read hfaithful hread).2.2.2 32 _ _ hsize hbytes⟩

end Field

end TypedMemory
