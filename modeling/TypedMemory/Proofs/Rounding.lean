import Mathlib.Algebra.Group.Nat.Defs
import Mathlib.Data.Nat.Log
import Mathlib.Order.Bounds.Basic
import TypedMemory.Rounding

/-!
# Rounding is least

* `isLeast_roundUp`: `roundUp` gives the least multiple at or above a value.
* `roundUp?_eq`: `roundUp?` gives the same number, or nothing from the end of the
  address space on.
* `powerOfTwo_le_iff`: `powerOfTwo` gives the least power of two at or above a value.
* `sizes_round_to_least`: what both mean for the sizes of an address space.
-/

namespace TypedMemory

theorem isLeast_roundUp (value alignment : Nat) :
    IsLeast {n | max 1 alignment ∣ n ∧ value ≤ n} (roundUp value alignment) := by
  unfold roundUp
  split
  next h =>
    rw [max_eq_left h]
    exact ⟨⟨Nat.one_dvd _, le_rfl⟩, fun n hn => hn.2⟩
  next h =>
    have hpos : 0 < alignment := by omega
    have hdiv := Nat.div_add_mod (value + (alignment - 1)) alignment
    have hmod := Nat.mod_lt (value + (alignment - 1)) hpos
    rw [max_eq_right (by omega)]
    refine ⟨⟨Nat.dvd_mul_left _ _, ?_⟩, ?_⟩
    · rw [Nat.mul_comm]
      omega
    · rintro n ⟨⟨k, rfl⟩, hle⟩
      rw [Nat.mul_comm]
      apply Nat.mul_le_mul_left
      -- a quotient is below the next multiple
      apply Nat.le_of_lt_succ
      rw [Nat.div_lt_iff_lt_mul hpos, Nat.succ_mul, Nat.mul_comm k]
      omega

theorem le_roundUp (value alignment : Nat) : value ≤ roundUp value alignment :=
  (isLeast_roundUp value alignment).1.2

theorem dvd_roundUp (value alignment : Nat) : max 1 alignment ∣ roundUp value alignment :=
  (isLeast_roundUp value alignment).1.1

theorem roundUp_eq_self {value alignment : Nat} (h : max 1 alignment ∣ value) :
    roundUp value alignment = value :=
  Nat.le_antisymm ((isLeast_roundUp value alignment).2 ⟨h, le_rfl⟩) (le_roundUp _ _)

theorem roundUp_lt_add (value : Nat) {alignment : Nat} (h : 0 < alignment) :
    roundUp value alignment < value + alignment := by
  unfold roundUp
  split
  next h' => omega
  next h' =>
    have hle := Nat.div_mul_le_self (value + (alignment - 1)) alignment
    omega

/-- The checked rounding is the unbounded one, as long as that is a size. -/
theorem roundUp?_eq {value : Nat} (hvalue : value < wordLimit) (alignment : Nat) :
    roundUp? value alignment =
      if roundUp value alignment < wordLimit then some (roundUp value alignment) else none := by
  unfold roundUp?
  split
  next h => rw [roundUp, if_pos h, if_pos hvalue]
  next h =>
    have hmax : max 1 alignment = alignment := max_eq_right (by omega)
    have hmod := Nat.mod_lt value (show 0 < alignment by omega)
    have hdiv := Nat.div_add_mod value alignment
    cases hexcess : value % alignment with
    | zero =>
      have he := roundUp_eq_self (hmax.symm ▸ Nat.dvd_of_mod_eq_zero hexcess)
      simp only
      rw [he, if_pos hvalue]
    | succ excess =>
      have he : roundUp value alignment = value + (alignment - (excess + 1)) := by
        refine IsLeast.unique (isLeast_roundUp value alignment) ⟨⟨?_, by omega⟩, ?_⟩
        · rw [hmax]
          refine ⟨value / alignment + 1, ?_⟩
          rw [Nat.mul_add, Nat.mul_one]
          omega
        · rintro n ⟨hdvd, hle⟩
          rw [hmax] at hdvd
          obtain ⟨k, rfl⟩ := hdvd
          have hk : value / alignment < k := by
            by_contra hk
            have := Nat.mul_le_mul_left alignment (Nat.le_of_not_lt hk)
            omega
          have := Nat.mul_le_mul_left alignment (Nat.succ_le_of_lt hk)
          rw [Nat.mul_succ] at this
          omega
      simp only [he]

theorem eq_roundUp_of_roundUp? {value alignment offset : Nat} (hvalue : value < wordLimit)
    (h : roundUp? value alignment = some offset) : roundUp value alignment = offset := by
  rw [roundUp?_eq hvalue] at h
  split at h
  next => exact Option.some.inj h
  next => cases h

/-! ### Powers of two -/

theorem powerOfTwo_eq_pow_clog (n : Nat) : powerOfTwo n = 2 ^ Nat.clog 2 n := by
  unfold powerOfTwo
  split
  next h => rw [Nat.clog_of_right_le_one h, Nat.pow_zero]
  next h =>
    rw [Nat.shiftLeft_eq, Nat.one_mul, Nat.log2_eq_log_two]
    congr 1
    refine le_antisymm ?_ ?_
    · rw [Nat.add_one_le_iff, Nat.lt_clog_iff_pow_lt (by decide)]
      have := Nat.pow_log_le_self 2 (show n - 1 ≠ 0 by omega)
      omega
    · rw [Nat.clog_le_iff_le_pow (by decide)]
      have := Nat.lt_pow_succ_log_self (show 1 < 2 by decide) (n - 1)
      omega

theorem powerOfTwo_le_iff (n k : Nat) : powerOfTwo n ≤ 2 ^ k ↔ n ≤ 2 ^ k := by
  rw [powerOfTwo_eq_pow_clog, Nat.pow_le_pow_iff_right (by decide),
    Nat.clog_le_iff_le_pow (by decide)]

theorem le_powerOfTwo (n : Nat) : n ≤ powerOfTwo n := by
  rw [powerOfTwo_eq_pow_clog]
  exact Nat.le_pow_clog (by decide) n

theorem isLeast_powerOfTwo (n : Nat) : IsLeast {m | (∃ k, m = 2 ^ k) ∧ n ≤ m} (powerOfTwo n) := by
  refine ⟨⟨⟨_, powerOfTwo_eq_pow_clog n⟩, le_powerOfTwo n⟩, ?_⟩
  rintro m ⟨⟨k, rfl⟩, hle⟩
  exact (powerOfTwo_le_iff n k).mpr hle

theorem powerOfTwo_pos (n : Nat) : 0 < powerOfTwo n := by
  rw [powerOfTwo_eq_pow_clog]
  exact Nat.two_pow_pos _

theorem powerOfTwo_mono {n m : Nat} (h : n ≤ m) : powerOfTwo n ≤ powerOfTwo m := by
  rw [powerOfTwo_eq_pow_clog, powerOfTwo_eq_pow_clog]
  exact Nat.pow_le_pow_right (by decide) (Nat.clog_mono_right 2 h)

theorem powerOfTwo_pow (k : Nat) : powerOfTwo (2 ^ k) = 2 ^ k :=
  Nat.le_antisymm ((powerOfTwo_le_iff _ k).mpr le_rfl) (le_powerOfTwo _)

theorem pow_powerOfTwoExponent (n : Nat) : 2 ^ powerOfTwoExponent n = powerOfTwo n := by
  unfold powerOfTwoExponent
  rw [powerOfTwo_eq_pow_clog, Nat.log2_two_pow]

/-! ### Sizes of an address space -/

/-- A size is rounded up to the least multiple of an alignment, and the checked rounding refuses
what is no size any more.  A size up to half the address space has a least power of two above it,
which is given by its exponent, keeps the order of sizes, and is the size itself where that is
a power of two. -/
theorem sizes_round_to_least {value n : Nat} (hvalue : value < wordLimit) (hn : n ≤ 2 ^ 63) :
    (∀ alignment, 2 ≤ alignment → ∃ least, IsLeast {m | alignment ∣ m ∧ value ≤ m} least ∧
      (least < wordLimit →
        roundUp? value alignment = some least ∧ roundUp value alignment = least) ∧
      (wordLimit ≤ least → roundUp? value alignment = none)) ∧
    (∀ alignment, alignment ≤ 1 →
      roundUp? value alignment = some value ∧ roundUp value alignment = value) ∧
    (IsLeast {m | (∃ k, m = 2 ^ k) ∧ max n 1 ≤ m} (powerOfTwo n) ∧ powerOfTwo n ≤ 2 ^ 63) ∧
    powerOfTwo n = 2 ^ powerOfTwoExponent n ∧
    (∀ m, m ≤ n → powerOfTwo m ≤ powerOfTwo n) ∧
    ((∃ k, n = 2 ^ k) → powerOfTwo n = n) := by
  refine ⟨?_, ?_, ⟨⟨⟨(isLeast_powerOfTwo n).1.1, ?_⟩, ?_⟩, (powerOfTwo_le_iff n 63).mpr hn⟩,
    (pow_powerOfTwoExponent n).symm, fun m hm => powerOfTwo_mono hm, ?_⟩
  · intro alignment halignment
    have hmax : max 1 alignment = alignment := max_eq_right (by omega)
    have hleast := isLeast_roundUp value alignment
    rw [hmax] at hleast
    refine ⟨_, hleast, fun hlt => ⟨?_, rfl⟩, fun hge => ?_⟩
    · rw [roundUp?_eq hvalue, if_pos hlt]
    · rw [roundUp?_eq hvalue, if_neg (Nat.not_lt.mpr hge)]
  · intro alignment halignment
    have hkept : roundUp value alignment = value := if_pos halignment
    rw [roundUp?_eq hvalue, hkept, if_pos hvalue]
    exact ⟨rfl, rfl⟩
  · exact max_le (le_powerOfTwo n) (powerOfTwo_pos n)
  · rintro m ⟨hpow, hle⟩
    exact (isLeast_powerOfTwo n).2 ⟨hpow, (le_max_left n 1).trans hle⟩
  · rintro ⟨k, rfl⟩
    exact powerOfTwo_pow k

/-- Near the end of the address space: the next multiple of five is the last size, and the next
multiple of six is none. -/
theorem sizes_round_to_least_end :
    (wordLimit - 3 < wordLimit ∧ 2 ^ 62 + 1 ≤ 2 ^ 63) ∧
    IsLeast {m | 5 ∣ m ∧ wordLimit - 3 ≤ m} (wordLimit - 1) ∧
    roundUp (wordLimit - 3) 5 = wordLimit - 1 ∧
    IsLeast {m | 6 ∣ m ∧ wordLimit - 3 ≤ m} (wordLimit + 2) ∧
    roundUp? (wordLimit - 3) 6 = none ∧
    powerOfTwo (2 ^ 62 + 1) = 2 ^ 63 := by
  have hvalue : wordLimit - 3 < wordLimit := by decide
  have hn : 2 ^ 62 + 1 ≤ 2 ^ 63 := by decide
  obtain ⟨hround, -, ⟨hpower, -⟩, -⟩ := sizes_round_to_least hvalue hn
  obtain ⟨five, hfive, hsome, hfiveNone⟩ := hround 5 (by decide)
  obtain ⟨six, hsix, hsixSome, hnone⟩ := hround 6 (by decide)
  have hlimit : wordLimit = 18446744073709551616 := rfl
  have hlast : five = wordLimit - 1 := by
    refine hfive.unique ⟨⟨by decide, by decide⟩, ?_⟩
    rintro m ⟨⟨k, rfl⟩, hle⟩
    omega
  have hpast : six = wordLimit + 2 := by
    refine hsix.unique ⟨⟨by decide, by decide⟩, ?_⟩
    rintro m ⟨⟨k, rfl⟩, hle⟩
    omega
  subst hlast hpast
  refine ⟨⟨hvalue, hn⟩, hfive, (hsome (by decide)).2, hsix, hnone (by decide), ?_⟩
  refine hpower.unique ⟨⟨⟨63, rfl⟩, by decide⟩, ?_⟩
  rintro m ⟨⟨k, rfl⟩, hle⟩
  have hlt : 2 ^ 62 < 2 ^ k := (le_max_left _ _).trans hle
  exact Nat.pow_le_pow_right (by decide) ((Nat.pow_lt_pow_iff_right (by decide)).mp hlt)

end TypedMemory
