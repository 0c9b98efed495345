import Mathlib.Data.Nat.ModEq
import Mathlib.Tactic.Ring
import TypedMemory.Bytes

/-!
# Bytes and words

Reading digits is the inverse of writing them, up to the digits that are not
written:

* `Bytes.toNat_ofNat`, `Bytes.ofNat_toNat`: on numbers and their digits.
* `wordOfBytes_bytesOfWord`, `bytesOfWord_wordOfBytes`: on words, in either order.
* `wordOfBytes_eq_foldl`: a word is read by shifting its digits in.
* `fitsUnsigned_iff`: a word fits a width if it has no more digits than that.

`Address.move` is addition as long as it stays in the address space.
-/

namespace TypedMemory

namespace Bytes

@[simp] theorem length_ofNat (size n : Nat) : (ofNat size n).length = size := by
  induction size generalizing n with
  | zero => rfl
  | succ size ih => rw [ofNat, List.length_cons, ih]

theorem toNat_lt (bytes : Bytes) : toNat bytes < 256 ^ bytes.length := by
  induction bytes with
  | nil => exact Nat.one_pos
  | cons b rest ih =>
    have hb := b.toNat_lt
    rw [toNat, List.length_cons, Nat.pow_succ]
    omega

theorem toNat_ofNat (size n : Nat) : toNat (ofNat size n) = n % 256 ^ size := by
  induction size generalizing n with
  | zero => rw [Nat.pow_zero, Nat.mod_one]; rfl
  | succ size ih =>
    have hdigit : (UInt8.ofNat (n % 256)).toNat = n % 256 := by
      rw [UInt8.toNat_ofNat']
      omega
    calc toNat (ofNat (size + 1) n)
        = n % 256 + 256 * (n / 256 % 256 ^ size) := by rw [ofNat, toNat, hdigit, ih]
      _ = n % (256 * 256 ^ size) := Nat.mod_mul.symm
      _ = n % 256 ^ (size + 1) := by rw [Nat.pow_succ, Nat.mul_comm]

/-- Digits are determined by their number and their count. -/
theorem toNat_injective {bytes other : Bytes} (hlen : bytes.length = other.length)
    (h : toNat bytes = toNat other) : bytes = other := by
  induction bytes generalizing other with
  | nil => exact (List.length_eq_zero_iff.mp hlen.symm).symm
  | cons b rest ih =>
    cases other with
    | nil => cases hlen
    | cons c more =>
      have hb := b.toNat_lt
      have hc := c.toNat_lt
      simp only [toNat] at h
      have hhead : b = c := UInt8.toNat_inj.mp (by omega)
      rw [hhead, ih (Nat.succ.inj hlen) (by omega)]

theorem ofNat_toNat (bytes : Bytes) : ofNat bytes.length (toNat bytes) = bytes := by
  apply toNat_injective (length_ofNat _ _)
  rw [toNat_ofNat, Nat.mod_eq_of_lt (toNat_lt bytes)]

/-- The digits that are written depend on the number modulo the count of their forms. -/
theorem ofNat_congr {size n m : Nat} (h : n % 256 ^ size = m % 256 ^ size) :
    ofNat size n = ofNat size m := by
  apply toNat_injective
  · rw [length_ofNat, length_ofNat]
  · rw [toNat_ofNat, toNat_ofNat, h]

theorem getElem?_ofNat {size i : Nat} (n : Nat) (h : i < size) :
    (ofNat size n)[i]? = some (UInt8.ofNat (n / 256 ^ i)) := by
  induction size generalizing n i with
  | zero => cases h
  | succ size ih =>
    cases i with
    | zero =>
      rw [ofNat, List.getElem?_cons_zero, Nat.pow_zero, Nat.div_one]
      exact congrArg some (UInt8.toNat_inj.mp (by simp))
    | succ i =>
      rw [ofNat, List.getElem?_cons_succ, ih _ (Nat.lt_of_succ_lt_succ h),
        Nat.div_div_eq_div_mul, Nat.pow_succ']

theorem ofNat_zero (size : Nat) : ofNat size 0 = List.replicate size 0 := by
  induction size with
  | zero => rfl
  | succ size ih =>
    rw [ofNat, Nat.zero_div, ih]
    rfl

end Bytes

@[simp] theorem length_arrange (bigEndian : Bool) (bytes : Bytes) :
    (arrange bigEndian bytes).length = bytes.length := by
  cases bigEndian
  · rfl
  · exact List.length_reverse

@[simp] theorem arrange_arrange (bigEndian : Bool) (bytes : Bytes) :
    arrange bigEndian (arrange bigEndian bytes) = bytes := by
  cases bigEndian
  · rfl
  · exact List.reverse_reverse bytes

/-! ### Words -/

theorem length_bytesOfWord {size : Nat} (hsize : size ≤ widestScalar) (value : UInt64)
    (bigEndian : Bool) : (bytesOfWord value size bigEndian).length = size := by
  rw [bytesOfWord, length_arrange, Bytes.length_ofNat, Nat.min_eq_left hsize]

theorem bytesOfWord_zero {size : Nat} (hsize : size ≤ widestScalar) (bigEndian : Bool) :
    bytesOfWord 0 size bigEndian = List.replicate size 0 := by
  rw [bytesOfWord, UInt64.toNat_zero, Bytes.ofNat_zero, Nat.min_eq_left hsize]
  cases bigEndian
  · rfl
  · exact List.reverse_replicate

/-- A word of at most eight digits is below the end of the address space. -/
theorem pow_le_wordLimit {size : Nat} (hsize : size ≤ widestScalar) : 256 ^ size ≤ wordLimit :=
  Nat.pow_le_pow_right (by decide) hsize

theorem pow_eight_mul (size : Nat) : 2 ^ (8 * size) = 256 ^ size := by
  rw [Nat.pow_mul]

theorem fitsUnsigned_iff {value : UInt64} {size : Nat} (hsize : size ≤ widestScalar) :
    fitsUnsigned value size = true ↔ value.toNat < 256 ^ size := by
  rw [fitsUnsigned, Bool.or_eq_true, decide_eq_true_iff, beq_iff_eq, Nat.shiftRight_eq_div_pow,
    Nat.div_eq_zero_iff, pow_eight_mul]
  constructor
  · rintro (h | h | h)
    · have he : size = widestScalar := Nat.le_antisymm hsize h
      rw [he]
      exact value.toNat_lt
    · exact absurd h (Nat.pos_iff_ne_zero.mp (Nat.pow_pos (by decide)))
    · exact h
  · exact fun h => Or.inr (Or.inr h)

theorem wordOfBytes_bytesOfWord {value : UInt64} {size : Nat} (hsize : size ≤ widestScalar)
    (hfits : value.toNat < 256 ^ size) (bigEndian : Bool) :
    wordOfBytes (bytesOfWord value size bigEndian) bigEndian = value := by
  rw [wordOfBytes, bytesOfWord, arrange_arrange, Nat.min_eq_left hsize, Bytes.toNat_ofNat,
    Nat.mod_eq_of_lt hfits, UInt64.ofNat_toNat]

theorem toNat_wordOfBytes {bytes : Bytes} (hsize : bytes.length ≤ widestScalar)
    (bigEndian : Bool) :
    (wordOfBytes bytes bigEndian).toNat = Bytes.toNat (arrange bigEndian bytes) := by
  have hlt := Bytes.toNat_lt (arrange bigEndian bytes)
  rw [length_arrange] at hlt
  rw [wordOfBytes, UInt64.toNat_ofNat']
  exact Nat.mod_eq_of_lt (lt_of_lt_of_le hlt (pow_le_wordLimit hsize))

theorem wordOfBytes_lt {bytes : Bytes} (hsize : bytes.length ≤ widestScalar) (bigEndian : Bool) :
    (wordOfBytes bytes bigEndian).toNat < 256 ^ bytes.length := by
  rw [toNat_wordOfBytes hsize]
  simpa using Bytes.toNat_lt (arrange bigEndian bytes)

theorem bytesOfWord_wordOfBytes {bytes : Bytes} (hsize : bytes.length ≤ widestScalar)
    (bigEndian : Bool) :
    bytesOfWord (wordOfBytes bytes bigEndian) bytes.length bigEndian = bytes := by
  have hdigits := Bytes.ofNat_toNat (arrange bigEndian bytes)
  rw [length_arrange] at hdigits
  rw [bytesOfWord, Nat.min_eq_left hsize, toNat_wordOfBytes hsize, hdigits, arrange_arrange]

/-- Puts a digit behind those of a word. -/
def shiftIn (word : UInt64) (digit : UInt8) : UInt64 := word <<< 8 ||| digit.toUInt64

theorem ofNat_digit_add (digit : UInt8) (n : Nat) :
    UInt64.ofNat (digit.toNat + 256 * n) = shiftIn (UInt64.ofNat n) digit := by
  apply UInt64.toNat_inj.mp
  have hdigit := digit.toNat_lt
  -- the digits above the seventh are shifted out
  have hshift : (n % 2 ^ 64) <<< 8 % 2 ^ 64 = (n % 2 ^ 56) <<< 8 := by
    simp only [Nat.shiftLeft_eq]
    omega
  have hor : (n % 2 ^ 56) <<< 8 ||| digit.toNat = (n % 2 ^ 56) <<< 8 + digit.toNat :=
    (Nat.shiftLeft_add_eq_or_of_lt (by omega) _).symm
  calc (UInt64.ofNat (digit.toNat + 256 * n)).toNat
      = (n % 2 ^ 56) <<< 8 + digit.toNat := by
        rw [UInt64.toNat_ofNat', Nat.shiftLeft_eq]
        omega
    _ = (n % 2 ^ 64) <<< 8 % 2 ^ 64 ||| digit.toNat := by rw [hshift, hor]
    _ = (shiftIn (UInt64.ofNat n) digit).toNat := by
        rw [shiftIn, UInt64.toNat_or, UInt64.toNat_shiftLeft, UInt64.toNat_ofNat',
          UInt8.toNat_toUInt64]
        rfl

/-- A word is read by shifting its digits in, the greatest first. -/
theorem wordOfBytes_eq_foldl (data : Bytes) (bigEndian : Bool) :
    wordOfBytes data bigEndian = (arrange (!bigEndian) data).foldl shiftIn 0 := by
  have hdigits : ∀ digits : Bytes,
      UInt64.ofNat (Bytes.toNat digits) = digits.reverse.foldl shiftIn 0 := by
    intro digits
    induction digits with
    | nil => rfl
    | cons digit rest ih =>
      rw [Bytes.toNat, ofNat_digit_add, ih, List.reverse_cons, List.foldl_append]
      rfl
  rw [wordOfBytes, hdigits]
  cases bigEndian
  · rfl
  · exact congrArg (List.foldl shiftIn 0) (List.reverse_reverse data)

/-! ### Addresses -/

theorem toNat_ofNat_of_lt {n : Nat} (h : n < wordLimit) : (UInt64.ofNat n).toNat = n := by
  rw [UInt64.toNat_ofNat']
  exact Nat.mod_eq_of_lt h

theorem toNat_ofInt (n : Int) : ((UInt64.ofInt n).toNat : Int) = n % wordLimit := by
  have hpos : (0 : Int) < wordLimit := by decide
  have h0 := Int.emod_nonneg n (Int.ne_of_gt hpos)
  have h1 := Int.emod_lt_of_pos n hpos
  rw [UInt64.ofInt, toNat_ofNat_of_lt]
  · exact Int.toNat_of_nonneg h0
  · exact (Int.toNat_lt h0).mpr h1

/-- Moving within the address space is addition. -/
theorem Address.toNat_move {address : Address} {distance : Int}
    (hlow : 0 ≤ address.toNat + distance) (hhigh : address.toNat + distance < wordLimit) :
    ((address.move distance).toNat : Int) = address.toNat + distance := by
  rw [Address.move, toNat_ofInt, Int.emod_eq_of_lt hlow hhigh]

/-- Moving forward within the address space. -/
theorem Address.toNat_move_natCast {a : Address} {distance : Nat}
    (h : a.toNat + distance < wordLimit) : (a.move distance).toNat = a.toNat + distance := by
  have hmove : ((a.move distance).toNat : Int) = a.toNat + distance :=
    Address.toNat_move (by omega) (by omega)
  omega

/-- Moving back within the address space. -/
theorem Address.toNat_move_neg {a : Address} {distance : Nat} (h : distance ≤ a.toNat) :
    (a.move (-(distance : Int))).toNat = a.toNat - distance := by
  have hlt : a.toNat < wordLimit := a.toNat_lt
  have hmove : ((a.move (-(distance : Int))).toNat : Int) = a.toNat + -(distance : Int) :=
    Address.toNat_move (by omega) (by omega)
  omega

/-- Moving back undoes a move, around the end of the address space too. -/
theorem Address.move_move_neg (a : Address) (distance : Int) :
    (a.move distance).move (-distance) = a := by
  apply UInt64.toNat_inj.mp
  have hlt : a.toNat < wordLimit := a.toNat_lt
  have h : ((((a.move distance).move (-distance)).toNat : Nat) : Int) = a.toNat := by
    rw [Address.move, toNat_ofInt, Address.move, toNat_ofInt, Int.emod_add_emod,
      Int.add_neg_cancel_right, Int.emod_eq_of_lt (by omega) (by omega)]
  omega

/-- Moving by two distances leads to addresses as far apart as these. -/
theorem Address.toNat_move_of_move {address : Address} {distance other : Int}
    (hlow : 0 ≤ (address.move other).toNat + (distance - other))
    (hhigh : (address.move other).toNat + (distance - other) < wordLimit) :
    ((address.move distance).toNat : Int) = (address.move other).toNat + (distance - other) := by
  rw [← Int.emod_eq_of_lt hlow hhigh, Address.move, Address.move, toNat_ofInt, toNat_ofInt,
    Int.emod_add_emod]
  congr 1
  omega

theorem Address.move_neg_move (a : Address) (distance : Int) :
    (a.move (-distance)).move distance = a := by
  have hback := Address.move_move_neg a (-distance)
  rwa [Int.neg_neg] at hback

/-- From a first byte to an origin, and from there to a place behind the first byte. -/
theorem Address.toNat_move_neg_move {a : Address} {start offset : Int} {distance : Nat}
    (hdistance : (distance : Int) = offset - start) (hend : a.toNat + distance < wordLimit) :
    ((a.move (-start)).move offset).toNat = a.toNat + distance := by
  have hfirst := Address.move_neg_move a start
  have hmove : (((a.move (-start)).move offset).toNat : Int) =
      ((a.move (-start)).move start).toNat + (offset - start) :=
    Address.toNat_move_of_move (by rw [hfirst]; omega) (by rw [hfirst]; omega)
  rw [hfirst] at hmove
  omega

@[simp] theorem Address.move_zero (address : Address) : address.move 0 = address := by
  have hlt : address.toNat < wordLimit := address.toNat_lt
  have h : ((address.move 0).toNat : Int) = address.toNat + 0 :=
    Address.toNat_move (by omega) (by omega)
  exact UInt64.toNat_inj.mp (by omega)

end TypedMemory
