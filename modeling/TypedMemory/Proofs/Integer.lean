import Mathlib.Algebra.Order.Ring.Int
import Mathlib.Data.Int.ModEq
import TypedMemory.Integer
import TypedMemory.Proofs.Bytes

/-!
# Integers in bytes

`FitsBytes signed size n`: the integer `n` has a form of `size` bytes.  The checks of
the program are this range (`fitsSigned_iff`, `IntType.reduce_eq_self`), and the bytes
of an integer have its value modulo the number of their forms
(`toNat_bytesOfWord_ofInt`).

So words and their bytes stand for each other in every width (`words_and_bytes`).
-/

namespace TypedMemory

/-- The integers of `size` bytes, in two's complement where they are signed. -/
def FitsBytes (signed : Bool) (size : Nat) (n : Int) : Prop :=
  if signed then -(256 ^ size : Nat) ≤ n * 2 ∧ n * 2 < (256 ^ size : Nat)
  else 0 ≤ n ∧ n < (256 ^ size : Nat)

instance (signed : Bool) (size : Nat) (n : Int) : Decidable (FitsBytes signed size n) :=
  inferInstanceAs (Decidable (if signed then _ else _))

variable {signed : Bool} {size : Nat} {n : Int}

theorem FitsBytes.mono {wider : Nat} (h : FitsBytes signed size n) (hsize : size ≤ wider) :
    FitsBytes signed wider n := by
  have hpow : ((256 ^ size : Nat) : Int) ≤ (256 ^ wider : Nat) :=
    Int.ofNat_le.mpr (Nat.pow_le_pow_right (by decide) hsize)
  cases signed with
  | true =>
    obtain ⟨hlow, hhigh⟩ := h
    exact ⟨by omega, by omega⟩
  | false =>
    obtain ⟨hlow, hhigh⟩ := h
    exact ⟨hlow, by omega⟩

/-! ### Bytes of words -/

theorem toNat_bytesOfWord (hsize : size ≤ widestScalar) (value : UInt64) (bigEndian : Bool) :
    Bytes.toNat (arrange bigEndian (bytesOfWord value size bigEndian)) =
      value.toNat % 256 ^ size := by
  rw [bytesOfWord, arrange_arrange, Nat.min_eq_left hsize, Bytes.toNat_ofNat]

theorem pow_dvd_wordLimit (hsize : size ≤ widestScalar) :
    ((256 ^ size : Nat) : Int) ∣ (wordLimit : Nat) :=
  Int.natCast_dvd_natCast.mpr (Nat.pow_dvd_pow 256 hsize)

/-- The low digits of a word are those of the integer that was cut to it. -/
theorem toNat_ofInt_emod (hsize : size ≤ widestScalar) (n : Int) :
    ((UInt64.ofInt n).toNat : Int) % (256 ^ size : Nat) = n % (256 ^ size : Nat) := by
  rw [toNat_ofInt, Int.emod_emod_of_dvd n (pow_dvd_wordLimit hsize)]

theorem toNat_bytesOfWord_ofInt (hsize : size ≤ widestScalar) (n : Int) (bigEndian : Bool) :
    (Bytes.toNat (arrange bigEndian (bytesOfWord (UInt64.ofInt n) size bigEndian)) : Int) =
      n % (256 ^ size : Nat) := by
  rw [toNat_bytesOfWord hsize, ← toNat_ofInt_emod hsize n, Int.natCast_mod]

/-- The bytes that an integer is cut to are those of its remainder. -/
theorem bytesOfWord_ofInt (hsize : size ≤ widestScalar) (n : Int) (bigEndian : Bool) :
    bytesOfWord (UInt64.ofInt n) size bigEndian =
      arrange bigEndian (Bytes.ofNat size (n % (256 ^ size : Nat)).toNat) := by
  have hpos : ((256 ^ size : Nat) : Int) ≠ 0 :=
    Int.natCast_ne_zero.mpr (Nat.pow_pos (by decide)).ne'
  have hcast : ((n % (256 ^ size : Nat)).toNat : Int) = n % (256 ^ size : Nat) :=
    Int.toNat_of_nonneg (Int.emod_nonneg n hpos)
  rw [bytesOfWord, Nat.min_eq_left hsize]
  refine congrArg (arrange bigEndian) (Bytes.ofNat_congr (Int.ofNat.inj ?_))
  show (((UInt64.ofInt n).toNat % 256 ^ size : Nat) : Int) =
    (((n % (256 ^ size : Nat)).toNat % 256 ^ size : Nat) : Int)
  rw [Int.natCast_mod, Int.natCast_mod, toNat_ofInt_emod hsize, hcast, Int.emod_emod]

/-- A word has the low digits of its bytes. -/
theorem toNat_wordOfBytes_emod (hsize : size ≤ widestScalar) (data : Bytes) (bigEndian : Bool) :
    ((wordOfBytes data bigEndian).toNat : Int) % (256 ^ size : Nat) =
      Bytes.toNat (arrange bigEndian data) % (256 ^ size : Nat) := by
  rw [wordOfBytes, UInt64.toNat_ofNat', Int.natCast_mod]
  exact Int.emod_emod_of_dvd _ (pow_dvd_wordLimit hsize)

/-! ### Two's complement -/

theorem bmod_eq_self_iff : n.bmod (256 ^ size) = n ↔ FitsBytes true size n := by
  have hpos : 0 < 256 ^ size := Nat.pow_pos (by decide)
  constructor
  · intro h
    have hlow := Int.le_bmod (x := n) hpos
    have hhigh := Int.bmod_lt (x := n) hpos
    rw [h] at hlow hhigh
    have heven : ((256 ^ size : Nat) : Int) % 2 = 0 ∨ size = 0 := by
      cases size with
      | zero => exact Or.inr rfl
      | succ size =>
        rw [Nat.pow_succ]
        omega
    rcases heven with heven | rfl
    · exact ⟨by omega, by omega⟩
    · rw [Nat.pow_zero] at *
      exact ⟨by omega, by omega⟩
  · exact fun h => Int.bmod_eq_of_le_mul_two h.1 h.2

theorem fitsBytes_bmod (n : Int) (size : Nat) : FitsBytes true size (n.bmod (256 ^ size)) :=
  bmod_eq_self_iff.mp Int.bmod_bmod

theorem signExtend_eq (hpos : 0 < size) (hsize : size ≤ widestScalar) (value : UInt64) :
    signExtend value size = Int.bmod value.toNat (256 ^ size) := by
  unfold signExtend
  split
  next h =>
    have hwidest : size = widestScalar := by omega
    rw [hwidest]
    rfl
  next h => rw [Nat.shiftLeft_eq, Nat.one_mul, pow_eight_mul]

theorem fitsSigned_iff (hpos : 0 < size) (hsize : size ≤ widestScalar)
    (hword : FitsBytes true widestScalar n) :
    fitsSigned n size = true ↔ FitsBytes true size n := by
  rw [fitsSigned, Bool.or_eq_true, decide_eq_true_iff, beq_iff_eq, signExtend_eq hpos hsize,
    ← Int.emod_bmod, toNat_ofInt_emod hsize, Int.emod_bmod, bmod_eq_self_iff]
  constructor
  · rintro (hwidest | h)
    · rwa [Nat.le_antisymm hsize hwidest]
    · exact h
  · exact Or.inr

/-- The bytes that read as a signed integer are those that it is written as. -/
theorem signExtend_wordOfBytes_eq_iff (hpos : 0 < size) (hsize : size ≤ widestScalar)
    {data : Bytes} (hlength : data.length = size) (bigEndian : Bool) :
    signExtend (wordOfBytes data bigEndian) size = n ↔
      FitsBytes true size n ∧ data = bytesOfWord (UInt64.ofInt n) size bigEndian := by
  have hlt : Bytes.toNat (arrange bigEndian data) < 256 ^ size := by
    have := Bytes.toNat_lt (arrange bigEndian data)
    rwa [length_arrange, hlength] at this
  rw [signExtend_eq hpos hsize, toNat_wordOfBytes (hlength.trans_le hsize)]
  constructor
  · intro hn
    refine ⟨hn ▸ fitsBytes_bmod _ size, ?_⟩
    have hbytes := toNat_bytesOfWord_ofInt hsize n bigEndian
    rw [← hn, Int.bmod_emod, Int.emod_eq_of_lt (Int.natCast_nonneg _) (Int.ofNat_lt.mpr hlt),
      hn] at hbytes
    have hsame := Bytes.toNat_injective (by
      rw [length_arrange, length_arrange, length_bytesOfWord hsize, hlength])
      (Int.ofNat.inj hbytes).symm
    rw [← arrange_arrange bigEndian data, hsame, arrange_arrange]
  · rintro ⟨hfits, hdata⟩
    rw [hdata, toNat_bytesOfWord_ofInt hsize, Int.emod_bmod]
    exact bmod_eq_self_iff.mpr hfits

theorem signExtend_eq_iff (hpos : 0 < size) (hsize : size ≤ widestScalar) (value : UInt64) :
    signExtend value size = n ↔
      FitsBytes true size n ∧ n ≡ value.toNat [ZMOD (256 ^ size : Nat)] := by
  rw [signExtend_eq hpos hsize]
  constructor
  · rintro rfl
    exact ⟨fitsBytes_bmod _ size, Int.bmod_emod⟩
  · rintro ⟨hfits, hmod⟩
    rw [← Int.emod_bmod, ← hmod, Int.emod_bmod]
    exact bmod_eq_self_iff.mpr hfits

/-! ### Words and their bytes -/

/-- The sign extension shifts the bytes to the high end, and back with copies of the highest bit. -/
theorem signExtend_eq_sshiftRight (hpos : 0 < size) (hsize : size ≤ widestScalar)
    (value : UInt64) :
    signExtend value size =
      ((value.toBitVec <<< (64 - 8 * size)).sshiftRight (64 - 8 * size)).toInt := by
  obtain ⟨shift, hshift⟩ : ∃ shift, 64 - 8 * size = shift := ⟨_, rfl⟩
  have hwidest : widestScalar = 8 := rfl
  have hunit : (0 : Int) < (2 ^ shift : Nat) := Int.natCast_pos.mpr (Nat.two_pow_pos shift)
  have hpow : ((2 ^ 64 : Nat) : Int) = (2 ^ shift : Nat) * (256 ^ size : Nat) := by
    rw [← pow_eight_mul, ← hshift, ← Int.natCast_mul, ← Nat.pow_add, Nat.sub_add_cancel (by omega)]
  have hlow : -2 ^ 63 ≤ (value.toBitVec <<< shift).toInt := BitVec.le_toInt _
  have hhigh : (value.toBitVec <<< shift).toInt < 2 ^ 63 := BitVec.toInt_lt
  -- what is shifted to the high end is the word less its higher bytes
  obtain ⟨q, hq⟩ : ∃ q, (value.toBitVec <<< shift).toInt =
      (2 ^ shift : Nat) * (value.toNat - (256 ^ size : Nat) * q) := by
    refine ⟨Int.bdiv ((2 ^ shift : Nat) * value.toNat) (2 ^ 64), ?_⟩
    rw [BitVec.toInt_shiftLeft, Nat.shiftLeft_eq, Nat.mul_comm, Int.natCast_mul,
      Int.bmod_eq_self_sub_mul_bdiv, hpow, Int.mul_assoc, ← Int.mul_sub]
    rfl
  have hback : ((value.toBitVec <<< shift).sshiftRight shift).toInt =
      value.toNat - (256 ^ size : Nat) * q := by
    rw [BitVec.toInt_sshiftRight, hq, Int.shiftRight_eq_div_pow]
    exact Int.mul_ediv_cancel_left _ (Int.ne_of_gt hunit)
  rw [hshift, hback, signExtend_eq_iff hpos hsize]
  refine ⟨⟨?_, ?_⟩, ?_⟩
  · apply Int.le_of_mul_le_mul_left _ hunit
    rw [Int.mul_neg, ← hpow, ← Int.mul_assoc, ← hq]
    omega
  · apply Int.lt_of_mul_lt_mul_left _ (Int.le_of_lt hunit)
    rw [← hpow, ← Int.mul_assoc, ← hq]
    omega
  · exact Int.sub_mul_emod_self_left _ _ _

/-- Half of the forms are for negative integers. -/
theorem fitsBytes_true_iff (hpos : 0 < size) :
    FitsBytes true size n ↔ -(2 ^ (8 * size - 1) : Int) ≤ n ∧ n < 2 ^ (8 * size - 1) := by
  have hhalf : ((256 ^ size : Nat) : Int) = 2 ^ (8 * size - 1) * 2 := by
    rw [← pow_eight_mul, ← pow_succ, Nat.sub_add_cancel (by omega)]
    norm_cast
  simp only [FitsBytes, if_true, hhalf]
  constructor
  · rintro ⟨hlow, hhigh⟩
    exact ⟨by omega, by omega⟩
  · rintro ⟨hlow, hhigh⟩
    exact ⟨by omega, by omega⟩

theorem toNat_wordOfBytes_bytesOfWord (hsize : size ≤ widestScalar) (value : UInt64)
    (bigEndian : Bool) :
    (wordOfBytes (bytesOfWord value size bigEndian) bigEndian).toNat =
      value.toNat % 256 ^ size := by
  have hlength := length_bytesOfWord hsize value bigEndian
  rw [toNat_wordOfBytes (hlength.trans_le hsize), toNat_bytesOfWord hsize]

theorem bytesOfWord_true (value : UInt64) (size : Nat) :
    bytesOfWord value size true = (bytesOfWord value size false).reverse := rfl

theorem getElem?_bytesOfWord (hsize : size ≤ widestScalar) (value : UInt64) {i : Nat}
    (h : i < size) :
    (bytesOfWord value size false)[i]? = some (UInt8.ofNat (value.toNat / 256 ^ i)) := by
  show (Bytes.ofNat (min size widestScalar) value.toNat)[i]? = _
  rw [Nat.min_eq_left hsize, Bytes.getElem?_ofNat _ h]

/-- In each width and order, bytes are those of the word that they hold, and a word is cut to the
digits of its width.  The sign extension is the integer of the width that is congruent to the word.
The checks pass the numbers of the width, so an integer that passes is read back. -/
theorem words_and_bytes (hpos : 0 < size) (hsize : size ≤ widestScalar) (bigEndian : Bool) :
    (∀ data : Bytes, data.length = size →
      wordOfBytes data bigEndian = (arrange (!bigEndian) data).foldl shiftIn 0 ∧
      bytesOfWord (wordOfBytes data bigEndian) size bigEndian = data) ∧
    (∀ value : UInt64,
      (bytesOfWord value size bigEndian).length = size ∧
      (wordOfBytes (bytesOfWord value size bigEndian) bigEndian).toNat =
        value.toNat % 2 ^ (8 * size) ∧
      (∀ i, i < size →
        (bytesOfWord value size false)[i]? = some (UInt8.ofNat (value.toNat / 256 ^ i))) ∧
      bytesOfWord value size true = (bytesOfWord value size false).reverse ∧
      signExtend value size =
        ((value.toBitVec <<< (64 - 8 * size)).sshiftRight (64 - 8 * size)).toInt ∧
      (∀ n : Int, signExtend value size = n ↔
        (-(2 ^ (8 * size - 1)) ≤ n ∧ n < 2 ^ (8 * size - 1)) ∧
          n ≡ value.toNat [ZMOD 2 ^ (8 * size)]) ∧
      (fitsUnsigned value size = true ↔ value.toNat < 2 ^ (8 * size))) ∧
    ∀ n : Int, -(2 ^ 63) ≤ n → n < 2 ^ 63 →
      (fitsSigned n size = true ↔ -(2 ^ (8 * size - 1)) ≤ n ∧ n < 2 ^ (8 * size - 1)) ∧
      (fitsSigned n size = true →
        signExtend (wordOfBytes (bytesOfWord (UInt64.ofInt n) size bigEndian) bigEndian) size =
          n) := by
  refine ⟨?_, fun value => ⟨length_bytesOfWord hsize value bigEndian, ?_,
    fun i hi => getElem?_bytesOfWord hsize value hi, bytesOfWord_true value size,
    signExtend_eq_sshiftRight hpos hsize value, ?_, ?_⟩, ?_⟩
  · rintro data rfl
    exact ⟨wordOfBytes_eq_foldl data bigEndian, bytesOfWord_wordOfBytes hsize bigEndian⟩
  · rw [toNat_wordOfBytes_bytesOfWord hsize, pow_eight_mul]
  · intro n
    rw [signExtend_eq_iff hpos hsize, fitsBytes_true_iff hpos, ← pow_eight_mul]
    norm_cast
  · rw [fitsUnsigned_iff hsize, pow_eight_mul]
  · intro n hlow hhigh
    have hword : FitsBytes true widestScalar n := (fitsBytes_true_iff (by decide)).mpr ⟨hlow, hhigh⟩
    rw [fitsSigned_iff hpos hsize hword]
    refine ⟨fitsBytes_true_iff hpos, fun hfits => ?_⟩
    have hlength := length_bytesOfWord hsize (UInt64.ofInt n) bigEndian
    exact (signExtend_wordOfBytes_eq_iff hpos hsize hlength bigEndian).mpr ⟨hfits, rfl⟩

/-- Three bytes, of which the highest bit is set, and the ends of the range. -/
theorem words_and_bytes_three :
    (0 < 3 ∧ 3 ≤ widestScalar) ∧
    bytesOfWord (wordOfBytes [0xfe, 0xff, 0x80] true) 3 true = [0xfe, 0xff, 0x80] ∧
    (wordOfBytes (bytesOfWord 0x0102030405060708 3 true) true).toNat =
      0x0102030405060708 % 2 ^ (8 * 3) ∧
    ((-(2 ^ (8 * 3 - 1)) ≤ signExtend 0x1fffffe 3 ∧ signExtend 0x1fffffe 3 < 2 ^ (8 * 3 - 1)) ∧
      signExtend 0x1fffffe 3 ≡ (0x1fffffe : UInt64).toNat [ZMOD 2 ^ (8 * 3)]) ∧
    (fitsSigned (-8388608) 3 = true ∧ fitsSigned 8388608 3 = false) ∧
    signExtend (wordOfBytes (bytesOfWord (UInt64.ofInt (-8388608)) 3 true) true) 3 = -8388608 := by
  have hpos : 0 < 3 := by decide
  have hsize : 3 ≤ widestScalar := by decide
  obtain ⟨hdata, hvalue, hinteger⟩ := words_and_bytes hpos hsize true
  obtain ⟨-, hcut, -⟩ := hvalue 0x0102030405060708
  obtain ⟨-, -, -, -, -, hsign, -⟩ := hvalue 0x1fffffe
  obtain ⟨hlow, hread⟩ := hinteger (-8388608) (by decide) (by decide)
  obtain ⟨hhigh, -⟩ := hinteger 8388608 (by decide) (by decide)
  have hfits : fitsSigned (-8388608) 3 = true := hlow.mpr (by decide)
  refine ⟨⟨hpos, hsize⟩, (hdata _ rfl).2, hcut, (hsign _).mp rfl, ⟨hfits, ?_⟩, hread hfits⟩
  exact Bool.eq_false_iff.mpr fun h => absurd (hhigh.mp h) (by decide)

/-! ### Integer types -/

namespace IntType

theorem cardinality_eq (t : IntType) : t.cardinality = 256 ^ t.size := by
  cases t <;> rfl

theorem range_iff (t : IntType) (n : Int) :
    t.least ≤ n ∧ n ≤ t.greatest ↔ FitsBytes t.isSigned t.size n := by
  unfold least greatest FitsBytes
  rw [t.cardinality_eq]
  cases t <;> simp [isSigned, IntType.size] <;> omega

theorem isSome_ofInt?_iff (t : IntType) (n : Int) :
    (Integer.ofInt? t n).isSome ↔ FitsBytes t.isSigned t.size n := by
  rw [← t.range_iff]
  unfold Integer.ofInt?
  split
  next h => exact ⟨fun _ => h, fun _ => rfl⟩
  next h => exact ⟨nofun, fun hin => absurd hin h⟩

theorem size_le (t : IntType) : t.size ≤ widestScalar := by
  cases t <;> decide

theorem size_pos (t : IntType) : 0 < t.size := by
  cases t <;> decide

/-- A type has one number for all that differ by a multiple of its cardinality. -/
theorem wrap_congr {t : IntType} {n m : Int}
    (h : n % (256 ^ t.size : Nat) = m % (256 ^ t.size : Nat)) :
    Integer.wrap t n = Integer.wrap t m := by
  have hreduce : t.reduce n = t.reduce m := by
    unfold reduce
    rw [t.cardinality_eq]
    split
    · rw [← Int.emod_bmod n, h, Int.emod_bmod]
    · exact h
  unfold Integer.wrap
  simp only [hreduce]

/-- Numbers in the range of a type are not changed by it. -/
theorem reduce_eq_self {t : IntType} (h : FitsBytes t.isSigned t.size n) : t.reduce n = n := by
  unfold reduce
  rw [t.cardinality_eq]
  cases hsigned : t.isSigned with
  | true =>
    rw [hsigned] at h
    exact bmod_eq_self_iff.mpr h
  | false =>
    rw [hsigned] at h
    exact Int.emod_eq_of_lt h.1 h.2

end IntType

theorem Integer.fits (n : Integer) : FitsBytes n.type.isSigned n.type.size n.value :=
  (n.type.range_iff n.value).mp ⟨n.least_le, n.le_greatest⟩

end TypedMemory
