import TypedMemory.Proofs.View.Navigation

/-!
# Moves of a pointer

`PointerSlot.offset` computes the distance of a move in a signed word before it adds the
distance to the target.  Where all of this fits, the move is exact: it leads to the address
that it has in the integers, or is refused because this is outside the address space
(`PointerSlot.MovesExactly`).

A size or a distance that a signed word does not hold is refused too, also where the address
is inside.  An array at the target, whose addresses are computed in unsigned words, has an
address there.  These are the only moves that are not exact (`PointerSlot.movesExactly_iff`).
-/

namespace TypedMemory

open Access

namespace PointerSlot

/-- The move by `delta` elements of `n` bytes stays in the address space. -/
def StaysInside (target : Address) (n : Nat) (delta : Int) : Prop :=
  0 ≤ target.toNat + delta * n ∧ target.toNat + delta * n < wordLimit

/-- A signed word holds the size of an element and the distance of the move. -/
def FitsSigned (n : Nat) (delta : Int) : Prop :=
  n < offsetLimit ∧ -(offsetLimit : Int) ≤ delta * n ∧ delta * n < offsetLimit

instance (target : Address) (n : Nat) (delta : Int) : Decidable (StaysInside target n delta) :=
  inferInstanceAs (Decidable (_ ∧ _))

instance (n : Nat) (delta : Int) : Decidable (FitsSigned n delta) :=
  inferInstanceAs (Decidable (_ ∧ _))

/-- The outcome of the move is the address that it has in the integers if there is such an
address, and otherwise an error of memory access. -/
def MovesExactly (target : Address) (n : Nat) (delta : Int) (outcome : Except Error Address) :
    Prop :=
  (∀ address : Address, outcome = .ok address ↔ (address.toNat : Int) = target.toNat + delta * n) ∧
  ∀ e, outcome = .error e → ∃ a length fault, e = .memoryAccess a length fault

variable {σ : Type} {m : Space σ} {slot : PointerSlot} {st st' : σ} {target : Address} {n : Nat}
  {delta : Int}

theorem StaysInside.toNat_ofInt (h : StaysInside target n delta) :
    ((UInt64.ofInt (target.toNat + delta * n)).toNat : Int) = target.toNat + delta * n := by
  rw [TypedMemory.toNat_ofInt, Int.emod_eq_of_lt h.1 h.2]

theorem StaysInside.movesExactly (h : StaysInside target n delta) :
    MovesExactly target n delta (.ok (UInt64.ofInt (target.toNat + delta * n))) := by
  have hmoved := h.toNat_ofInt
  refine ⟨fun address => ?_, nofun⟩
  rw [Except.ok.injEq]
  constructor
  · rintro rfl
    exact hmoved
  · intro haddress
    exact UInt64.toNat_inj.mp (by omega)

theorem movesExactly_error_iff {a : Address} {length : Nat} {fault : AccessFault} :
    MovesExactly target n delta (.error (.memoryAccess a length fault)) ↔
      ¬ StaysInside target n delta := by
  constructor
  · intro hexact hinside
    exact nomatch (hexact.1 _).mpr hinside.toNat_ofInt
  · intro houtside
    refine ⟨fun address => iff_of_false nofun fun haddress => houtside ?_, ?_⟩
    · have hlt : address.toNat < wordLimit := address.toNat_lt
      exact ⟨by omega, by omega⟩
    · rintro e ⟨⟩
      exact ⟨a, length, fault, rfl⟩

theorem follow_of_targetAddress (hload : (slot.targetAddress m).Yields st target st')
    (hne : target ≠ 0) : (slot.follow m).Yields st target st' := by
  have hfollow : slot.follow m =
      slot.targetAddress m >>= fun w =>
        if w = 0 then throw (.nullPointer slot.address) else return w := rfl
  rw [hfollow, hload.bind_iff, if_neg hne]
  exact yields_pure.mpr ⟨rfl, rfl⟩

theorem eval_offset (hload : (slot.targetAddress m).Yields st target st') (hne : target ≠ 0)
    (hsize : m.fieldSize slot.target = .ok n) (delta : Int) :
    eval (slot.offset m delta) st =
      (if FitsSigned n delta ∧ StaysInside target n delta then
        .ok (UInt64.ofInt (target.toNat + delta * n))
      else .error (.memoryAccess target n (.moveOutside delta)), st') := by
  have hfits : (n < offsetLimit ∧ -(offsetLimit : Int) ≤ delta * n ∧ delta * n < offsetLimit ∧
      0 ≤ target.toNat + delta * n ∧ target.toNat + delta * n < wordLimit) ↔
      FitsSigned n delta ∧ StaysInside target n delta := by
    simp only [FitsSigned, StaysInside, and_assoc]
  unfold offset
  rw [hsize, liftM_ok_bind, (follow_of_targetAddress hload hne).eval_bind]
  simp only [hfits]
  split <;> rfl

/-- The outcome of a move is exact, or it is an error although the move stays inside. -/
theorem movesExactly_offset_iff (hload : (slot.targetAddress m).Yields st target st')
    (hne : target ≠ 0) (hsize : m.fieldSize slot.target = .ok n) :
    MovesExactly target n delta (eval (slot.offset m delta) st).1 ↔
      (StaysInside target n delta → FitsSigned n delta) := by
  rw [eval_offset hload hne hsize]
  by_cases hfits : FitsSigned n delta
  · refine iff_of_true ?_ fun _ => hfits
    by_cases hinside : StaysInside target n delta
    · rw [if_pos ⟨hfits, hinside⟩]
      exact hinside.movesExactly
    · rw [if_neg fun h => hinside h.2]
      exact movesExactly_error_iff.mpr hinside
  · rw [if_neg fun h => hfits h.1, movesExactly_error_iff]
    exact ⟨fun houtside hinside => absurd hinside houtside, fun h hinside => hfits (h hinside)⟩

/-- The elements of an array of unknown length are where the moves forward from its first element
lead in the integers. -/
theorem movesExactly_addressAt {element : Field} {order : ByteOrder} (index : Nat)
    (hsize : m.fieldSize element = .ok n) :
    MovesExactly target n index ((ArrayView.mk target element none order).addressAt m index) := by
  have haddressAt : (ArrayView.mk target element none order).addressAt m index =
      if target.toNat + index * n < wordLimit then .ok (UInt64.ofNat (target.toNat + index * n))
      else .error (.memoryAccess target n (.elementOutside index)) := by
    simp only [ArrayView.addressAt, ArrayView.checkIndex, hsize]
    rfl
  have hcast : ((target.toNat + index * n : Nat) : Int) = target.toNat + index * n := by
    rw [Int.natCast_add, Int.natCast_mul]
  have hinside : StaysInside target n index ↔ target.toNat + index * n < wordLimit := by
    rw [StaysInside, ← hcast]
    omega
  rw [haddressAt]
  by_cases hend : target.toNat + index * n < wordLimit
  · have hmoved := (hinside.mpr hend).toNat_ofInt
    have haddress : UInt64.ofNat (target.toNat + index * n) =
        UInt64.ofInt (target.toNat + index * n) := by
      apply UInt64.toNat_inj.mp
      rw [toNat_ofNat_of_lt hend]
      omega
    rw [if_pos hend, haddress]
    exact (hinside.mpr hend).movesExactly
  · rw [if_neg hend]
    exact movesExactly_error_iff.mpr fun h => hend (hinside.mp h)

/-- A move is exact unless it stays in the address space and a signed word does not hold the
size of an element or the distance, in which case it is refused.  Forward it is exact if and
only if it agrees with the array of unknown length at the target. -/
theorem movesExactly_iff (hload : (slot.targetAddress m).Yields st target st') (hne : target ≠ 0)
    (hsize : m.fieldSize slot.target = .ok n) (delta : Int) :
    ∃ outcome, eval (slot.offset m delta) st = (outcome, st') ∧
    (MovesExactly target n delta outcome ↔ (StaysInside target n delta → FitsSigned n delta)) ∧
    (¬ MovesExactly target n delta outcome →
      outcome = .error (.memoryAccess target n (.moveOutside delta))) ∧
    ∀ (index : Nat) (order : ByteOrder), delta = index →
      (MovesExactly target n delta outcome ↔ ∀ address, outcome = .ok address ↔
        (ArrayView.mk target slot.target none order).addressAt m index = .ok address) := by
  have heval := eval_offset hload hne hsize delta
  have hexact : MovesExactly target n delta (eval (slot.offset m delta) st).1 ↔
      (StaysInside target n delta → FitsSigned n delta) :=
    movesExactly_offset_iff hload hne hsize
  rw [heval] at hexact
  refine ⟨_, heval, hexact, fun hrefused => ?_, ?_⟩
  · exact if_neg fun h => hrefused (hexact.mpr fun _ => h.1)
  · rintro index order rfl
    have harray : MovesExactly target n index
        ((ArrayView.mk target slot.target none order).addressAt m index) :=
      movesExactly_addressAt index hsize
    constructor
    · exact fun h address => (h.1 address).trans (harray.1 address).symm
    · intro hagree
      refine ⟨fun address => (hagree address).trans (harray.1 address), fun e he => ?_⟩
      split at he
      · cases he
      · cases he
        exact ⟨_, _, _, rfl⟩

/-- A pointer at 4096 that holds 4112. -/
def pointerBuffer : Buffer :=
  ⟨4096, [16, 16] ++ List.replicate 30 0, []⟩

/-- One element back, and as far forward as a signed word holds. -/
theorem movesExactly_near :
    let m := Buffer.space .host {}
    let slot : PointerSlot := ⟨4096, .scalar .u64, .little⟩
    (slot.targetAddress m).Yields pointerBuffer 4112 pointerBuffer ∧
    m.fieldSize slot.target = .ok 8 ∧
    MovesExactly 4112 8 (-1) (eval (slot.offset m (-1)) pointerBuffer).1 ∧
    MovesExactly 4112 8 (2 ^ 60 - 1) (eval (slot.offset m (2 ^ 60 - 1)) pointerBuffer).1 := by
  intro m slot
  have hload : (slot.targetAddress m).Yields pointerBuffer 4112 pointerBuffer := by decide +kernel
  have hsize : m.fieldSize slot.target = .ok 8 := by decide +kernel
  have hexact : ∀ delta : Int, FitsSigned 8 delta →
      MovesExactly 4112 8 delta (eval (slot.offset m delta) pointerBuffer).1 := by
    intro delta hfits
    obtain ⟨outcome, heval, hiff, -⟩ := movesExactly_iff hload (by decide) hsize delta
    rw [heval]
    exact hiff.mpr fun _ => hfits
  exact ⟨hload, hsize, hexact (-1) (by decide), hexact (2 ^ 60 - 1) (by decide)⟩

/-- The element at 2 ^ 63 + 4112 is inside, and the array has it, but the move is refused. -/
theorem not_movesExactly_far :
    let m := Buffer.space .host {}
    let slot : PointerSlot := ⟨4096, .scalar .u64, .little⟩
    (slot.targetAddress m).Yields pointerBuffer 4112 pointerBuffer ∧
    m.fieldSize slot.target = .ok 8 ∧
    (0 : Int) ≤ 4112 + 2 ^ 60 * 8 ∧ (4112 : Int) + 2 ^ 60 * 8 < wordLimit ∧
    (ArrayView.mk 4112 slot.target none .little).addressAt m (2 ^ 60) =
      .ok 9223372036854779920 ∧
    eval (slot.offset m (2 ^ 60)) pointerBuffer =
      (.error (.memoryAccess 4112 8 (.moveOutside (2 ^ 60))), pointerBuffer) := by
  decide +kernel

end PointerSlot
end TypedMemory
