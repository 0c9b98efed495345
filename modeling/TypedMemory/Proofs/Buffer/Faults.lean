import TypedMemory.Proofs.Buffer.Effects

/-!
# Faults of the memory

`Access.FailsByMemory` says of an access that it can only fail because bytes are not
there, and that it then leaves everything as it was.  Reading bytes and words is of this
kind, and so is what is put together from it.
-/

namespace TypedMemory

/-- An access to bytes that are not there. -/
def Error.IsMemoryAccess (e : Error) : Prop :=
  ∃ address length fault, e = .memoryAccess address length fault

namespace Access

variable {σ α β : Type} {x : Access σ α} {s : σ}

/-- If the access fails from `s`, this is for lack of bytes, and it leaves `s`. -/
def FailsByMemory (x : Access σ α) (s : σ) : Prop :=
  ∀ e t, eval x s = (.error e, t) → t = s ∧ e.IsMemoryAccess

theorem Yields.failsByMemory {a : α} {t : σ} (h : Yields x s a t) : FailsByMemory x s := by
  intro e u he
  cases he.symm.trans h

theorem FailsByMemory.bind {f : α → Access σ β} (hx : FailsByMemory x s)
    (hf : ∀ a t, Yields x s a t → t = s ∧ FailsByMemory (f a) s) : FailsByMemory (x >>= f) s := by
  intro e u he
  rw [eval_bind] at he
  rcases hresult : eval x s with ⟨e' | a, t⟩
  · rw [hresult] at he
    cases he
    exact hx _ _ hresult
  · obtain ⟨rfl, hrest⟩ := hf a t hresult
    rw [hresult] at he
    exact hrest e u he

theorem FailsByMemory.map {f : α → β} (hx : FailsByMemory x s) : FailsByMemory (f <$> x) s := by
  intro e u he
  rw [← bind_pure_comp, eval_bind] at he
  rcases hresult : eval x s with ⟨e' | a, t⟩
  · rw [hresult] at he
    cases he
    exact hx _ _ hresult
  · rw [hresult] at he
    cases he

/-- An access that gives a default instead of failing. -/
theorem ReadOnly.exists_yields_tryCatch (hx : ReadOnly x) (s : σ) (absent : α) :
    ∃ a, Yields (tryCatch x fun _ => Pure.pure absent) s a s := by
  rcases yields_or_fails x s with ⟨a, t, h⟩ | ⟨t, h⟩
  · obtain rfl := hx.eq_of_yields h
    exact ⟨a, h.tryCatch⟩
  · obtain rfl := hx.eq_of_fails h
    exact ⟨absent, h.tryCatch fun _ => yields_pure.mpr ⟨rfl, rfl⟩⟩

end Access

open Access

namespace Buffer

variable {p : Platform} {b : Buffer}

theorem isMemoryAccess_of_position {a : Address} {length : Nat} {e : Error}
    (h : b.position a length = .error e) : e.IsMemoryAccess := by
  unfold position at h
  simp only at h
  split_ifs at h
  all_goals
    cases h
    exact ⟨a, length, _, rfl⟩

theorem failsByMemory_readBytes (b : Buffer) (a : Address) (length : Nat) :
    FailsByMemory (readBytes a length) b := by
  intro e t he
  refine ⟨(readOnly_readBytes a length).eq_of_fails ⟨e, he⟩, ?_⟩
  unfold readBytes at he
  rw [eval_bind, eval_get] at he
  simp only [eval_bind, eval_liftM] at he
  cases hposition : b.position a length with
  | ok first =>
    rw [hposition] at he
    cases he
  | error e' =>
    rw [hposition] at he
    cases he
    exact isMemoryAccess_of_position hposition

theorem failsByMemory_readWord (b : Buffer) (a : Address) (order : ByteOrder) :
    FailsByMemory ((port p).readWord a order) b := by
  rw [Port.readWord_eq]
  apply FailsByMemory.map
  refine (failsByMemory_readBytes b a _).bind fun bytes t hbytes => ?_
  obtain ⟨rfl, hlength, -⟩ := readBytes_yields_iff.mp hbytes
  rw [if_pos hlength]
  exact ⟨rfl, (yields_pure.mpr ⟨rfl, rfl⟩).failsByMemory⟩

end Buffer

end TypedMemory
