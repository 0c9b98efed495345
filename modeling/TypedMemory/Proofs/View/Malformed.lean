import TypedMemory.Proofs.Layout.Outcome
import TypedMemory.Proofs.View.Pointer

/-!
# Pointers to malformed types

A type without a layout is at fault whatever the memory holds.  A move of a pointer to such a type
needs the size of the target first, so it fails before it reads anything.  A load and a store follow
the pointer first, and then look for the layout:

    slot.offset m delta = throw e,    slot.get m = slot.follow m >>= fun _ => throw e.

So what a load or a store reports depends on the memory: it is the fault of the type only if the
pointer leads somewhere, and otherwise that of the pointer (`PointerSlot.reports_malformed_iff`).
-/

namespace TypedMemory

open Access

namespace PointerSlot

variable {σ : Type} {m : Space σ} {slot : PointerSlot} {type : TypeId} {e : Error}

/-- The pointer can be read and is not null. -/
def LeadsOn (m : Space σ) (slot : PointerSlot) (s : σ) : Prop :=
  ∃ target t, target ≠ 0 ∧ (slot.targetAddress m).Yields s target t

section Malformed

variable (htarget : slot.target = .composite type) (hlayout : m.layout type = .error e)

include htarget hlayout

theorem fieldSize_of_malformed : m.fieldSize slot.target = .error e := by
  have hsize : m.fieldSize (.composite type) = (m.layout type).map (·.size) := rfl
  rw [htarget, hsize, hlayout]
  rfl

theorem targetSlot_of_malformed (target : Address) : slot.targetSlot m target = .error e := by
  unfold targetSlot
  rw [htarget]
  simp only [hlayout]
  rfl

theorem offset_of_malformed (delta : Int) : slot.offset m delta = throw e := by
  unfold offset
  rw [fieldSize_of_malformed htarget hlayout]
  rfl

theorem getAt_of_malformed (index : Int) : slot.getAt m index = throw e := by
  unfold getAt
  rw [offset_of_malformed htarget hlayout]
  rfl

theorem get_of_malformed : slot.get m = slot.follow m >>= fun _ => throw e := by
  unfold get
  simp only [targetSlot_of_malformed htarget hlayout]
  rfl

theorem set_of_malformed (v : Value) : slot.set m v = slot.follow m >>= fun _ => throw e := by
  unfold set assignFrom
  simp only [targetSlot_of_malformed htarget hlayout]
  rfl

end Malformed

/-- An error of a type comes out behind a pointer if the pointer leads on.  A port can also give
this error when the pointer is read. -/
theorem follow_throw_iff {α : Type} (he : e.concernsSchema = true) (s : σ) :
    (eval (slot.follow m >>= fun _ => (throw e : Access σ α)) s).1 = .error e ↔
      slot.LeadsOn m s ∨ (eval (slot.targetAddress m) s).1 = .error e := by
  have hfollow : slot.follow m =
      slot.targetAddress m >>= fun w =>
        if w = 0 then throw (.nullPointer slot.address) else return w := rfl
  rw [hfollow, bind_assoc, eval_bind]
  rcases hread : eval (slot.targetAddress m) s with ⟨e' | target, t⟩
  · -- the pointer can not be read
    simp [LeadsOn, Yields, hread]
  · by_cases hnull : target = 0
    · have hother : Error.nullPointer slot.address ≠ e := by
        intro h
        subst h
        cases he
      simp [LeadsOn, Yields, hread, hnull, hother]
    · simp [LeadsOn, Yields, hread, hnull]

/-- Moves of a pointer to a malformed type report the fault of the type in every state, and leave
the state.  Loads and stores report it if and only if the pointer can be read and is not null, or
if the port itself gives this error for the pointer. -/
theorem reports_malformed_iff (htarget : slot.target = .composite type)
    (hlayout : m.layout type = .error e) (s : σ) :
    e.concernsSchema = true ∧
    (∀ delta, eval (slot.offset m delta) s = (.error e, s)) ∧
    (∀ index, eval (slot.getAt m index) s = (.error e, s)) ∧
    ((eval (slot.get m) s).1 = .error e ↔
      slot.LeadsOn m s ∨ (eval (slot.targetAddress m) s).1 = .error e) ∧
    ∀ v, (eval (slot.set m v) s).1 = .error e ↔
      slot.LeadsOn m s ∨ (eval (slot.targetAddress m) s).1 = .error e := by
  have he : e.concernsSchema = true := Schema.layout_failsBySchema _ _ type e hlayout
  refine ⟨he, ?_, ?_, ?_, ?_⟩
  · intro delta
    rw [offset_of_malformed htarget hlayout, eval_throw]
  · intro index
    rw [getAt_of_malformed htarget hlayout, eval_throw]
  · rw [get_of_malformed htarget hlayout, follow_throw_iff he]
  · intro v
    rw [set_of_malformed htarget hlayout, follow_throw_iff he]

/-- A schema with one type, which has no definition. -/
def pendingSchema : Schema := ⟨[⟨"Pending", .struct, none⟩]⟩

/-- The load and the store through the pointer in `pointerBuffer` report the fault of the type.  The
moves do so where the pointer is null, and where the buffer ends inside of it. -/
theorem reports_malformed_pending :
    let m := Buffer.space .host pendingSchema
    let slot : PointerSlot := ⟨4096, .composite (.declared 0), .native⟩
    let e : Error := .layout (.undefined "struct Pending")
    slot.LeadsOn m pointerBuffer ∧
    (eval (slot.get m) pointerBuffer).1 = .error e ∧
    (eval (slot.set m .void) pointerBuffer).1 = .error e ∧
    eval (slot.offset m 1) (Buffer.zeroed 4096 8) = (.error e, Buffer.zeroed 4096 8) ∧
    eval (slot.getAt m 1) (Buffer.zeroed 4096 4) = (.error e, Buffer.zeroed 4096 4) := by
  intro m slot e
  have htarget : slot.target = .composite (.declared 0) := rfl
  have hlayout : m.layout (.declared 0) = .error e := by decide +kernel
  have hleads : slot.LeadsOn m pointerBuffer := by
    have hread : (slot.targetAddress m).Yields pointerBuffer 4112 pointerBuffer := by
      decide +kernel
    exact ⟨4112, pointerBuffer, by decide, hread⟩
  obtain ⟨-, -, -, hget, hset⟩ := reports_malformed_iff htarget hlayout pointerBuffer
  obtain ⟨-, hoffset, -⟩ := reports_malformed_iff htarget hlayout (Buffer.zeroed 4096 8)
  obtain ⟨-, -, hgetAt, -⟩ := reports_malformed_iff htarget hlayout (Buffer.zeroed 4096 4)
  exact ⟨hleads, hget.mpr (Or.inl hleads), (hset .void).mpr (Or.inl hleads), hoffset 1, hgetAt 1⟩

/-- A null pointer hides the fault of the type. -/
theorem not_reports_malformed_null :
    ¬ ∀ (p : Platform) (schema : Schema) (slot : PointerSlot) (type : TypeId) (e : Error)
      (b : Buffer), slot.target = .composite type → schema.layout p type = .error e →
        (eval (slot.get (Buffer.space p schema)) b).1 = .error e := by
  intro h
  have hfault := h .host pendingSchema ⟨4096, .composite (.declared 0), .native⟩ (.declared 0)
    (.layout (.undefined "struct Pending")) (Buffer.zeroed 4096 8) rfl (by decide +kernel)
  revert hfault
  decide +kernel

end PointerSlot

end TypedMemory
