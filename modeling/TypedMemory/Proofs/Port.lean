import TypedMemory.Port
import TypedMemory.Proofs.Integer

/-!
# Integers through a port

The widths that occur are those of scalars, so nothing is refused for its width.  What
is left of an access is one access to bytes, and for a write the range of its integers.

`Port.readNumber` and `Port.writeNumber` stand for the signed and the unsigned access at
once.  A port may give fewer bytes than it was asked for, but only the right number of them
is taken for an integer (`map_readExactly_congr`).  So ways to decode bytes have to agree on
lists of that length only.
-/

namespace TypedMemory

namespace Port

variable {σ : Type} {port : Port σ} {address : Address} {order : ByteOrder} {size : Nat}

theorem requireScalarSize_eq (hpos : 0 < size) (hsize : size ≤ widestScalar) :
    (requireScalarSize address size : Access σ Unit) = pure () := by
  unfold requireScalarSize
  rw [if_neg (by omega)]

theorem writeUnsigned_eq (hpos : 0 < size) (hsize : size ≤ widestScalar)
    (w : UInt64) :
    port.writeUnsigned address size w order =
      if w.toNat < 256 ^ size then
        port.writeBytes address (bytesOfWord w size (order.isBigEndian port.platform))
      else throw (.valueOutOfRange w.toNat size) := by
  unfold writeUnsigned
  rw [requireScalarSize_eq hpos hsize, pure_bind]
  simp only [fitsUnsigned_iff hsize]
  rfl

theorem writeSigned_eq (hpos : 0 < size) (hsize : size ≤ widestScalar) {n : Int}
    (hword : FitsBytes true widestScalar n) :
    port.writeSigned address size n order =
      if FitsBytes true size n then
        port.writeBytes address
          (bytesOfWord (UInt64.ofInt n) size (order.isBigEndian port.platform))
      else throw (.valueOutOfRange n size) := by
  unfold writeSigned
  rw [requireScalarSize_eq hpos hsize, pure_bind]
  simp only [fitsSigned_iff hpos hsize hword]
  rfl

theorem readUnsigned_eq (hpos : 0 < size) (hsize : size ≤ widestScalar) :
    port.readUnsigned address size order =
      (wordOfBytes · (order.isBigEndian port.platform)) <$> port.readExactly address size := by
  unfold readUnsigned
  rw [requireScalarSize_eq hpos hsize, pure_bind, bind_pure_comp]
  rfl

theorem readSigned_eq (hpos : 0 < size) (hsize : size ≤ widestScalar) :
    port.readSigned address size order =
      (fun data => signExtend (wordOfBytes data (order.isBigEndian port.platform)) size) <$>
        port.readExactly address size := by
  unfold readSigned
  rw [readUnsigned_eq hpos hsize, bind_pure_comp, Functor.map_map]

/-! ### Numbers of either sign -/

section Number

variable {signed : Bool}

/-- Reads a number of `size` bytes, in two's complement where it is signed. -/
def readNumber (port : Port σ) (signed : Bool) (address : Address) (size : Nat)
    (order : ByteOrder) : Access σ Int :=
  if signed then port.readSigned address size order
  else (fun w => (w.toNat : Int)) <$> port.readUnsigned address size order

/-- Writes a number in `size` bytes, which have to hold it. -/
def writeNumber (port : Port σ) (signed : Bool) (address : Address) (size : Nat) (n : Int)
    (order : ByteOrder) : Access σ Unit :=
  if signed then port.writeSigned address size n order
  else port.writeUnsigned address size (UInt64.ofInt n) order

/-- What comes after reading has to deal with the number of bytes that was asked for. -/
theorem map_readExactly_congr {α : Type} {f g : Bytes → α}
    (h : ∀ data, data.length = size → f data = g data) :
    f <$> port.readExactly address size = g <$> port.readExactly address size := by
  unfold readExactly
  simp only [map_bind]
  congr 1
  funext data
  split
  next hlength => rw [map_pure, map_pure, h data hlength]
  next => rfl

/-- The number of `size` digits, the least significant first. -/
def numberOf (signed : Bool) (size : Nat) (digits : Bytes) : Int :=
  if signed then Int.bmod (Bytes.toNat digits) (256 ^ size) else Bytes.toNat digits

theorem fitsBytes_numberOf (signed : Bool) {digits : Bytes} (h : digits.length = size) :
    FitsBytes signed size (numberOf signed size digits) := by
  cases signed with
  | true => exact fitsBytes_bmod _ _
  | false =>
    have hlt := Bytes.toNat_lt digits
    rw [h] at hlt
    exact ⟨Int.natCast_nonneg _, Int.ofNat_lt.mpr hlt⟩

/-- The digits of a number that fits stand for it. -/
theorem numberOf_bytesOfWord (hsize : size ≤ widestScalar) {n : Int}
    (hfits : FitsBytes signed size n) (bigEndian : Bool) :
    numberOf signed size (arrange bigEndian (bytesOfWord (UInt64.ofInt n) size bigEndian)) = n := by
  unfold numberOf
  rw [toNat_bytesOfWord_ofInt hsize]
  cases signed with
  | true => rw [if_pos rfl, Int.emod_bmod, bmod_eq_self_iff.mpr hfits]
  | false => rw [if_neg Bool.false_ne_true, Int.emod_eq_of_lt hfits.1 hfits.2]

/-- A number is written with the digits that it was read from. -/
theorem bytesOfWord_numberOf (hsize : size ≤ widestScalar) (signed : Bool) {data : Bytes}
    (hlength : data.length = size) (bigEndian : Bool) :
    bytesOfWord (UInt64.ofInt (numberOf signed size (arrange bigEndian data))) size bigEndian =
      data := by
  have hdigits : (arrange bigEndian data).length = size := by rw [length_arrange, hlength]
  have hlt := Bytes.toNat_lt (arrange bigEndian data)
  rw [hdigits] at hlt
  -- the sign does not matter for the remainder
  have hmod : numberOf signed size (arrange bigEndian data) % (256 ^ size : Nat) =
      (Bytes.toNat (arrange bigEndian data) : Int) := by
    have hsmall := Int.emod_eq_of_lt (Int.natCast_nonneg _) (Int.ofNat_lt.mpr hlt)
    unfold numberOf
    split
    · rw [Int.bmod_emod, hsmall]
    · exact hsmall
  calc bytesOfWord (UInt64.ofInt (numberOf signed size (arrange bigEndian data))) size bigEndian
      = arrange bigEndian (Bytes.ofNat size (Bytes.toNat (arrange bigEndian data))) := by
        rw [bytesOfWord_ofInt hsize, hmod, Int.toNat_natCast]
    _ = arrange bigEndian (arrange bigEndian data) := by
        rw [← hdigits, Bytes.ofNat_toNat]
    _ = data := arrange_arrange bigEndian data

theorem readNumber_eq (hpos : 0 < size) (hsize : size ≤ widestScalar) :
    port.readNumber signed address size order =
      (fun data => numberOf signed size (arrange (order.isBigEndian port.platform) data)) <$>
        port.readExactly address size := by
  cases signed with
  | true =>
    show port.readSigned address size order = _
    rw [readSigned_eq hpos hsize]
    refine map_readExactly_congr fun data hlength => ?_
    rw [signExtend_eq hpos hsize, toNat_wordOfBytes (hlength.trans_le hsize)]
    rfl
  | false =>
    show _ <$> port.readUnsigned address size order = _
    rw [readUnsigned_eq hpos hsize, Functor.map_map]
    refine map_readExactly_congr fun data hlength => ?_
    rw [toNat_wordOfBytes (hlength.trans_le hsize)]
    rfl

/-- The integers of a type are read as the numbers of its width. -/
theorem readInteger_eq (t : IntType) :
    port.readInteger t address order =
      Integer.wrap t <$> port.readNumber t.isSigned address t.size order := by
  rw [readNumber_eq t.size_pos t.size_le, Functor.map_map]
  unfold readInteger readFixed
  rw [bind_pure_comp, bind_pure_comp, Functor.map_map]
  refine map_readExactly_congr fun data _ => IntType.wrap_congr ?_
  unfold numberOf
  split
  · exact Int.bmod_emod.symm
  · rfl

theorem writeNumber_eq (hpos : 0 < size) (hsize : size ≤ widestScalar) {n : Int}
    (hword : FitsBytes signed widestScalar n) :
    port.writeNumber signed address size n order =
      if FitsBytes signed size n then
        port.writeBytes address
          (bytesOfWord (UInt64.ofInt n) size (order.isBigEndian port.platform))
      else throw (.valueOutOfRange n size) := by
  cases signed with
  | true => exact writeSigned_eq hpos hsize hword
  | false =>
    have hnumber : ((UInt64.ofInt n).toNat : Int) = n := by
      rw [toNat_ofInt]
      exact Int.emod_eq_of_lt hword.1 hword.2
    have hiff : (UInt64.ofInt n).toNat < 256 ^ size ↔ FitsBytes false size n := by
      simp only [FitsBytes, Bool.false_eq_true, if_false]
      omega
    show port.writeUnsigned address size (UInt64.ofInt n) order = _
    simp only [writeUnsigned_eq hpos hsize, hiff, hnumber]

/-- An integer always fits its own width. -/
theorem writeInteger_eq (n : Integer) :
    port.writeInteger address n order =
      port.writeNumber n.type.isSigned address n.type.size n.value order := by
  rw [writeNumber_eq n.type.size_pos n.type.size_le (n.fits.mono n.type.size_le), if_pos n.fits,
    bytesOfWord_ofInt n.type.size_le]
  unfold writeInteger writeFixed
  rw [n.type.cardinality_eq]
  rfl

end Number

end Port

end TypedMemory
