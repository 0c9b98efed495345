import TypedMemory.Proofs.Buffer.Word

/-!
# Regions that do not get shorter

`Buffer.Grows`: from wherever the access starts, the buffer that it leaves is at least as
long.  This is so for the operations of the port, and it is passed on by `>>=`.
-/

namespace TypedMemory

namespace Buffer

variable {α β : Type} {p : Platform} {a : Address} {order : ByteOrder}

/-- The access never makes the region shorter. -/
def Grows (x : Access Buffer α) : Prop :=
  ∀ b result b', x.Yields b result b' → b.limit ≤ b'.limit

theorem Grows.of_keeps {x : Access Buffer α} (h : ∀ b result b', x.Yields b result b' → b' = b) :
    Grows x := by
  intro b result b' hx
  rw [h b result b' hx]

theorem Grows.pure (result : α) : Grows (pure result) :=
  Grows.of_keeps fun _ _ _ h => (Access.yields_pure.mp h).2.symm

theorem Grows.liftM (r : Except Error α) : Grows (liftM r) :=
  Grows.of_keeps fun _ _ _ h => (Access.yields_liftM.mp h).2.symm

theorem Grows.throw (e : Error) : Grows (throw e : Access Buffer α) :=
  fun _ _ _ h => absurd h Access.yields_throw

theorem Grows.bind {x : Access Buffer α} {f : α → Access Buffer β} (hx : Grows x)
    (hf : ∀ result, Grows (f result)) : Grows (x >>= f) := by
  intro b result b' h
  obtain ⟨middle, b₁, h₁, h₂⟩ := Access.yields_bind.mp h
  exact (hx b middle b₁ h₁).trans (hf middle b₁ result b' h₂)

theorem Grows.forM {f : α → Access Buffer Unit} (hf : ∀ item, Grows (f item)) (items : List α) :
    Grows (forM items f) := by
  induction items with
  | nil => exact Grows.pure _
  | cons item rest ih =>
    rw [List.forM_cons]
    exact (hf item).bind fun _ => ih

/-! ### The operations of the port -/

theorem grows_writeBytes (data : Bytes) : Grows (writeBytes a data) := by
  intro b _ b' h
  obtain ⟨hm, rfl⟩ := writeBytes_yields_iff.mp h
  rw [limit_store hm]

theorem grows_allocate (size : Nat) : Grows (allocate size) := by
  intro b _ b' h
  obtain ⟨-, -, rfl⟩ := allocate_yields_iff.mp h
  exact limit_le_limit_grown b size

theorem grows_readWord : Grows ((port p).readWord a order) :=
  Grows.of_keeps fun _ _ _ h => (readWord_yields_iff.mp h).1

theorem grows_writeWord (value : UInt64) : Grows ((port p).writeWord a value order) := by
  intro b _ b' h
  obtain ⟨-, hm, rfl⟩ := writeWord_yields_iff.mp h
  rw [limit_store (by rwa [length_wordBytes])]

theorem grows_readSignedWord : Grows ((port p).readSignedWord a order) :=
  Grows.of_keeps fun _ _ _ h => (readSignedWord_yields_iff.mp h).1

theorem grows_writeSignedWord (value : Int) : Grows ((port p).writeSignedWord a value order) := by
  intro b _ b' h
  obtain ⟨data, hlen, hm, rfl⟩ := writeSigned_yields p.pointerSize_pos p.pointerSize_le h
  rw [limit_store (by rwa [hlen])]

end Buffer

end TypedMemory
