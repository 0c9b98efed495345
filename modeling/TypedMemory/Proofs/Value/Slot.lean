import TypedMemory.Proofs.Home

/-!
# Stores into slots

What assigning to a field changes is in the slot of the field, except where the value is a
composite with more bytes than the slot (`Field.keeps_assignFrom_iff`).  Such a value gets
this far if its type has the name of the type of the field, which says nothing of its size
(`Field.write_past_slot`).  It is read in its own home, which need not be the buffer.
-/

namespace TypedMemory

open Access

variable {p : Platform} {s : Schema} {b : Buffer} {a : Address} {order : ByteOrder}

namespace Buffer

/-- A store keeps what lies behind its first `n` bytes if it brings the same bytes there. -/
theorem keeps_store_iff {data : Bytes} {address n : Nat} (hmapped : b.Mapped address data.length) :
    b.Keeps (b.store address data) (Within address n) ↔
      ∀ i, n ≤ i → i < data.length → b.byte? (address + i) = data[i]? := by
  have hbyte := byte?_store hmapped
  have hlimit := hmapped.le_limit
  constructor
  · intro h i hlow hhigh
    have hkept := h.byte_eq (address + i) (by omega) (by unfold Within; omega)
    rw [hbyte, if_pos (by omega), Nat.add_sub_cancel_left] at hkept
    exact hkept.symm
  · intro h
    refine ⟨rfl, (limit_store hmapped).ge, fun x hx hout => ?_⟩
    rw [hbyte]
    split
    next hin =>
      have hi := h (x - address) (by unfold Within at hout; omega) (by omega)
      rw [Nat.add_sub_cancel' hin.1] at hi
      exact hi.symm
    next => rfl

end Buffer

open Buffer

/-! ### Values -/

section Parts

variable {τ α β : Type} {t : τ} {changed : Nat → Prop}

/-- What comes after reading decides what is kept. -/
theorem Buffer.keeps_of_leaves {x : Access (Buffer × τ) α} {f : α → Access (Buffer × τ) β}
    (hx : Leaves Prod.fst x)
    (hf : ∀ r u, x.Yields (b, t) r (b, u) → b.Keeps (eval (f r) (b, u)).2.1 changed) :
    b.Keeps (eval (x >>= f) (b, t)).2.1 changed := by
  rw [eval_bind]
  rcases hresult : eval x (b, t) with ⟨e | r, b', u⟩
  · obtain rfl : b' = b := hx.of_fails ⟨e, hresult⟩
    exact .refl b' _
  · obtain rfl : b' = b := hx.of_yields hresult
    exact hf r u hresult

theorem Buffer.keeps_writeWord {w : UInt64} :
    b.Keeps (eval ((space p s).onFirst.writeWord a w order) (b, t)).2.1
      (Within a.toNat p.pointerSize) := by
  rw [Port.writeWord_eq]
  split
  · exact keeps_writeBytes fun x hx => by rwa [length_bytesOfWord (Platform.pointerSize_le _)] at hx
  · exact .refl b _

theorem ScalarKind.keeps_write (kind : ScalarKind) (v : Value) :
    b.Keeps (eval (kind.write (space p s).onFirst.toPort a v order) (b, t)).2.1
      (Within a.toNat (kind.sizeOn p)) := by
  rw [kind.write_eq]
  refine keeps_of_leaves (ReadOnly.liftM _).leaves fun data u hdata => ?_
  refine keeps_writeBytes fun x hx => ?_
  rwa [length_encode (yields_liftM.mp hdata).1] at hx

end Parts

namespace Field

variable {τ : Type} {t : τ} {home : Home τ}

/-- Assigning the value stores a byte behind the `n` bytes of the field: the value is a
composite of which the type has the right name, its home gives bytes for it, all of
them can be stored, and one of those behind the slot is new there. -/
def Overruns (s : Schema) (home : Home τ) (b : Buffer) (t : τ) (field : Field) (n : Nat)
    (a : Address) (v : Value) : Prop :=
  ∃ type source bytes u, field = .composite type ∧ v = .composite source ∧
    source.layout.name = s.name type ∧
    (home.readBytes source.firstByte source.layout.size).Yields (b, t) bytes u ∧
    b.Mapped a.toNat bytes.length ∧
    ∃ i, n ≤ i ∧ i < bytes.length ∧ b.byte? (a.toNat + i) ≠ bytes[i]?

/-- Copying the bytes of a composite into `n` bytes. -/
theorem keeps_copy_iff {source : CompositeView} {n : Nat} :
    b.Keeps (eval (source.readImage home.toSpace >>= (space p s).onFirst.writeBytes a) (b, t)).2.1
        (Within a.toNat n) ↔
      ¬ ∃ (bytes : Bytes) (u : Buffer × τ),
        (home.readBytes source.firstByte source.layout.size).Yields (b, t) bytes u ∧
        b.Mapped a.toNat bytes.length ∧
        ∃ i, n ≤ i ∧ i < bytes.length ∧ b.byte? (a.toNat + i) ≠ bytes[i]? := by
  have hread := home.leaves_readImage source
  rw [eval_bind]
  rcases hresult : eval (source.readImage home.toSpace) (b, t) with ⟨e | bytes, b', u⟩
  · obtain rfl : b' = b := hread.of_fails ⟨e, hresult⟩
    refine ⟨?_, fun _ => .refl b' _⟩
    rintro - ⟨bytes, w, hbytes, -⟩
    cases hresult.symm.trans hbytes
  · obtain rfl : b' = b := hread.of_yields hresult
    have hstate : (eval ((space p s).onFirst.writeBytes a bytes) (b', u)).2.1 =
        (eval (writeBytes a bytes) b').2 := rfl
    simp only [hstate, eval_writeBytes]
    split
    next hmapped =>
      rw [keeps_store_iff hmapped]
      constructor
      · rintro h ⟨other, w, hother, -, i, hlow, hhigh, hne⟩
        obtain ⟨rfl, -⟩ := Yields.unique hresult hother
        exact hne (h i hlow hhigh)
      · intro h i hlow hhigh
        by_contra hne
        exact h ⟨bytes, _, hresult, hmapped, i, hlow, hhigh, hne⟩
    next hmapped =>
      refine ⟨?_, fun _ => .refl b' _⟩
      rintro - ⟨other, w, hother, hmapped', -⟩
      obtain ⟨rfl, -⟩ := Yields.unique hresult hother
      exact hmapped hmapped'

/-- Assigning to a field, whatever comes out, changes its slot only, unless the value
overruns it. -/
theorem keeps_assignFrom_iff {field : Field} {n : Nat} {v : Value}
    (hstring : ∀ abi, field ≠ .string abi) (hsize : field.size s p = .ok n) :
    b.Keeps (eval (field.assignFrom (space p s).onFirst home.toSpace a v order) (b, t)).2.1
        (Within a.toNat n) ↔
      ¬ Overruns s home b t field n a v := by
  -- nothing but a composite overruns its slot
  have hother : (∀ type, field ≠ .composite type) → ¬ Overruns s home b t field n a v := by
    rintro hne ⟨type, _, _, _, hfield, -⟩
    exact hne type hfield
  cases field with
  | string abi => exact absurd rfl (hstring abi)
  | void | array | fill => exact iff_of_true (Keeps.refl b _) (hother nofun)
  | scalar kind =>
    cases hsize
    exact iff_of_true (kind.keeps_write v) (hother nofun)
  | pointer target =>
    cases hsize
    refine iff_of_true ?_ (hother nofun)
    exact keeps_of_leaves (home.leaves_pointerTarget _ v) fun w u _ => keeps_writeWord
  | composite type =>
    cases v with
    | composite source =>
      by_cases hname : source.layout.name = s.name type
      · rw [assignFrom_composite hname, keeps_copy_iff, not_iff_not]
        constructor
        · rintro ⟨bytes, u, h⟩
          exact ⟨type, source, bytes, u, rfl, rfl, hname, h⟩
        · rintro ⟨_, _, bytes, u, ⟨⟩, ⟨⟩, -, h⟩
          exact ⟨bytes, u, h⟩
      · rw [assignFrom_composite_of_ne hname]
        refine iff_of_true (.refl b _) ?_
        rintro ⟨_, _, bytes, _, ⟨⟩, ⟨⟩, hname', -⟩
        exact hname hname'
    | _ =>
      refine iff_of_true (.refl b _) ?_
      rintro ⟨_, _, bytes, _, -, ⟨⟩, -⟩

/-- Two types of one name, of which the second has more bytes. -/
def twinSchema : Schema :=
  { declared := [
      ⟨"Same", .struct, some { fields := [("a", .scalar .u32)] }⟩,
      ⟨"Same", .struct, some { fields := [("a", .scalar .u64), ("b", .scalar .u64)] }⟩] }

/-- The layout of the second of them. -/
def widerLayout : Layout :=
  { name := "Same", kind := .struct, platform := .host, size := 16, alignment := 8, start := 0
    fields := [⟨"a", .scalar .u64, 0, 8, 8⟩, ⟨"b", .scalar .u64, 8, 8, 8⟩] }

/-- The bytes from 0 to 63, from the address 4096 on. -/
def countingBuffer : Buffer :=
  ⟨4096, (List.range 64).map UInt8.ofNat, []⟩

/-- A composite of another memory is stored in a slot of its type, and past the end of a slot of the
other type. -/
theorem keeps_assignFrom_elsewhere :
    let home : Home Buffer := .elsewhere (space .host .empty)
    let store : TypeId → Access (Buffer × Buffer) Unit := fun type =>
      (composite type).assignFrom (space .host twinSchema).onFirst home.toSpace 4128
        (.composite ⟨8192, widerLayout, .native⟩) .native
    countingBuffer.Keeps
      (eval (store (.declared 1)) (countingBuffer, .zeroed 8192 16)).2.1 (Within 4128 16) ∧
    ¬ countingBuffer.Keeps
      (eval (store (.declared 0)) (countingBuffer, .zeroed 8192 16)).2.1 (Within 4128 4) := by
  have hstring : ∀ type abi, composite type ≠ .string abi := nofun
  have hwide : (composite (.declared 1)).size twinSchema .host = .ok 16 := by decide +kernel
  have hnarrow : (composite (.declared 0)).size twinSchema .host = .ok 4 := by decide +kernel
  have hread : ((Home.elsewhere (space .host .empty)).readBytes 8192 16).Yields
      (countingBuffer, Buffer.zeroed 8192 16) (List.replicate 16 0)
      (countingBuffer, .zeroed 8192 16) := by
    decide +kernel
  constructor
  · refine (keeps_assignFrom_iff (hstring _) hwide).mpr ?_
    rintro ⟨_, source, bytes, u, -, hsource, -, hbytes, -, i, hlow, hhigh, -⟩
    -- there are no bytes behind the slot
    cases hsource
    obtain ⟨rfl, -⟩ := hread.unique hbytes
    exact absurd hhigh (Nat.not_lt.mpr hlow)
  · refine fun h => (keeps_assignFrom_iff (hstring _) hnarrow).mp h ?_
    exact ⟨_, _, _, _, rfl, rfl, rfl, hread, ⟨by decide, by decide, by decide⟩, 4, by decide,
      by decide, by decide +kernel⟩

/-- A composite of another type of the same name is stored past the end of the slot. -/
theorem write_past_slot :
    twinSchema.layout .host (.declared 1) = .ok widerLayout ∧
    ¬ ∀ (p : Platform) (s : Schema) (b : Buffer) (field : Field) (n : Nat) (a : Address)
      (v : Value) (order : ByteOrder), (∀ abi, field ≠ .string abi) → field.size s p = .ok n →
      b.Keeps (eval (field.write (space p s) a v order) b).2 (Within a.toNat n) := by
  refine ⟨by decide +kernel, fun h => ?_⟩
  have hsize : (composite (.declared 0)).size twinSchema .host = .ok 4 := by decide +kernel
  have hstring : ∀ abi, composite (.declared 0) ≠ .string abi := nofun
  have hkept := (h .host twinSchema countingBuffer (.composite (.declared 0)) 4 4128
    (.composite ⟨4096, widerLayout, .native⟩) .native hstring hsize).byte_eq 4132 (by decide)
    (fun hin => absurd hin.2 (by decide))
  -- the byte behind the slot is that of the source
  have hstored : (eval ((composite (.declared 0)).write (space .host twinSchema) 4128
      (.composite ⟨4096, widerLayout, .native⟩) .native) countingBuffer).2.byte? 4132 = some 4 := by
    decide +kernel
  have hbefore : countingBuffer.byte? 4132 = some 36 := by decide +kernel
  rw [hstored, hbefore] at hkept
  exact absurd hkept (by decide)

end Field

end TypedMemory
