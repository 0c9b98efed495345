import Mathlib.Data.Nat.ModEq
import TypedMemory.Proofs.Buffer.History

/-!
# Alignment of blocks

A block starts at a multiple of `blockAlignment` behind the base, so its address leaves the remainder
that the base leaves (`nextBlock_modEq`).  This is so also where the addresses come around the end
of the address space, which has a multiple of `blockAlignment` bytes.

The base never changes.  So the blocks of a run are aligned if and only if the base is, unless
there are none (`aligned_blocks_iff`).
-/

namespace TypedMemory

namespace Buffer

variable {b : Buffer} {call : Call} {calls : List Call} {k : Allocation}

theorem nextBlock_modEq (b : Buffer) :
    b.nextBlock.toNat ≡ b.base.toNat [MOD blockAlignment] := by
  have hspace : blockAlignment ∣ 2 ^ 64 := by decide
  have hwrap : ∀ n, n % 2 ^ 64 ≡ n [MOD blockAlignment] :=
    fun n => (Nat.mod_modEq n (2 ^ 64)).of_dvd hspace
  have hdistance : roundUp b.memory.length blockAlignment ≡ 0 [MOD blockAlignment] :=
    Nat.modEq_zero_iff_dvd.mpr (dvd_roundUp b.memory.length blockAlignment)
  rw [nextBlock, UInt64.toNat_add, UInt64.toNat_ofNat']
  calc (b.base.toNat + roundUp b.memory.length blockAlignment % 2 ^ 64) % 2 ^ 64
      ≡ b.base.toNat + roundUp b.memory.length blockAlignment % 2 ^ 64 [MOD blockAlignment] :=
        hwrap _
    _ ≡ b.base.toNat + roundUp b.memory.length blockAlignment [MOD blockAlignment] :=
        (hwrap _).add_left _
    _ ≡ b.base.toNat [MOD blockAlignment] := hdistance.add_left _

theorem block_modEq_of_answer (h : (b.answer call).block? = some k) :
    k.address.toNat ≡ b.base.toNat [MOD blockAlignment] := by
  rcases b.serve_cases call with
    ⟨address, data, -, hanswer, -⟩ | ⟨size, -, hanswer, -⟩ | ⟨⟨e, hanswer⟩, -⟩
  · rw [hanswer] at h
    cases h
  · rw [hanswer] at h
    cases h
    exact b.nextBlock_modEq
  · rw [hanswer] at h
    cases call <;> cases h

theorem block_modEq_of_log (h : k ∈ (b.log calls).filterMap Entry.block?) :
    k.address.toNat ≡ b.base.toNat [MOD blockAlignment] := by
  induction calls generalizing b with
  | nil => cases h
  | cons call rest ih =>
    obtain ⟨e, he, hblock⟩ := List.mem_filterMap.mp h
    rcases List.mem_cons.mp he with rfl | hrest
    · exact block_modEq_of_answer hblock
    · -- the calls behind start from a buffer at the same base
      have hbase := (b.keeps_region_serve call).1
      rw [← hbase]
      exact ih (List.mem_filterMap.mpr ⟨e, hrest, hblock⟩)

/-- The addresses of all blocks of a run leave the remainder that the base leaves.  So they are
multiples of the alignment if and only if the base is one, or there are no blocks. -/
theorem aligned_blocks_iff (b : Buffer) (calls : List Call) :
    (∀ k ∈ (b.log calls).filterMap Entry.block?,
      k.address.toNat ≡ b.base.toNat [MOD blockAlignment]) ∧
    ((∀ k ∈ (b.log calls).filterMap Entry.block?, blockAlignment ∣ k.address.toNat) ↔
      blockAlignment ∣ b.base.toNat ∨ (b.log calls).filterMap Entry.block? = []) := by
  have hmod : ∀ k ∈ (b.log calls).filterMap Entry.block?,
      k.address.toNat ≡ b.base.toNat [MOD blockAlignment] := by
    intro k hk
    exact block_modEq_of_log hk
  refine ⟨hmod, ?_⟩
  constructor
  · intro h
    by_cases hnone : (b.log calls).filterMap Entry.block? = []
    · exact Or.inr hnone
    · obtain ⟨k, hk⟩ := List.exists_mem_of_ne_nil _ hnone
      exact Or.inl (((hmod k hk).dvd_iff dvd_rfl).mp (h k hk))
  · intro h k hk
    rcases h with hbase | hnone
    · exact ((hmod k hk).dvd_iff dvd_rfl).mpr hbase
    · rw [hnone] at hk
      cases hk

/-- The first block of a region at 4104 is at 4120. -/
theorem not_aligned_blocks :
    ¬ ∀ (b : Buffer) (calls : List Call), (b.after calls).limit ≤ wordLimit →
      ∀ k ∈ (b.log calls).filterMap Entry.block?, blockAlignment ∣ k.address.toNat := by
  intro h
  have hblock : (⟨4120, 5⟩ : Allocation) ∈
      ((zeroed 4104 16).log [.allocate 5]).filterMap Entry.block? := by
    decide +kernel
  exact absurd (h (zeroed 4104 16) [.allocate 5] (by decide +kernel) ⟨4120, 5⟩ hblock) (by decide)

end Buffer

end TypedMemory
