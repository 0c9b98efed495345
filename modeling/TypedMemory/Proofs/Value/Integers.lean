import TypedMemory.Proofs.Value.Scalar

/-!
# Integers in memory

A scalar of an integer kind takes every number in the range of its width, whatever integer
type the value has, and no other number.  What it takes is read as the same number, and is
then converted to each integer type that has the number (`ScalarKind.never_truncates`).
-/

namespace TypedMemory

/-- An integer is converted to the types that have its number. -/
theorem Value.toInteger_int {m : Integer} {n : Int} (h : m.value = n) (t : IntType) :
    (Value.int m).toInteger t =
      if hin : t.least ≤ n ∧ n ≤ t.greatest then .ok ⟨t, n, hin.1, hin.2⟩
      else .error (.valueOutOfRange n t.size) := by
  subst h
  unfold toInteger asInt? Integer.ofInt?
  by_cases hin : t.least ≤ m.value ∧ m.value ≤ t.greatest
  · simp only [dif_pos hin]
  · simp only [dif_neg hin]

/-- A number that is stored in its width is read. -/
theorem Buffer.readNumber_store {p : Platform} {b : Buffer} {a : Address} {order : ByteOrder}
    {signed : Bool} {size : Nat} {n : Int} (hpos : 0 < size) (hsize : size ≤ widestScalar)
    (hfits : FitsBytes signed size n) (hm : b.Mapped a.toNat size) :
    let b' := b.store a.toNat (bytesOfWord (UInt64.ofInt n) size (order.isBigEndian p))
    ((port p).readNumber signed a size order).Yields b' n b' := by
  have hlength := length_bytesOfWord hsize (UInt64.ofInt n) (order.isBigEndian p)
  intro b'
  rw [Port.readNumber_eq hpos hsize, Access.yields_map]
  refine ⟨_, readExactly_yields_iff.mpr ⟨rfl, hlength, Mapped.holds_store (by rwa [hlength])⟩, ?_⟩
  exact Port.numberOf_bytesOfWord hsize hfits _

/-- Integers are stored whole or not at all: a number that fits the width of the kind is read as
the same number, which each integer type takes that has it, and a number that does not fit is
refused and leaves the memory as it is. -/
theorem ScalarKind.never_truncates {kind : ScalarKind} {t : IntType} (ht : kind.intType? = some t)
    (p : Platform) (order : ByteOrder) {a : Address} {b : Buffer}
    (hm : b.Mapped a.toNat (kind.sizeOn p)) (n : Integer) :
    (FitsBytes kind.isSigned (kind.sizeOn p) n.value →
      ∃ b' m, (kind.write (Buffer.port p) a (.int n) order).Yields b () b' ∧
        b.Keeps b' (Buffer.Within a.toNat (kind.sizeOn p)) ∧
        (kind.read (Buffer.port p) a order).Yields b' (.int m) b' ∧
        m.type = t ∧ m.value = n.value ∧
        ∀ u : IntType, (Value.int m).toInteger u =
          if hin : u.least ≤ n.value ∧ n.value ≤ u.greatest then .ok ⟨u, n.value, hin.1, hin.2⟩
          else .error (.valueOutOfRange n.value u.size)) ∧
    (¬ FitsBytes kind.isSigned (kind.sizeOn p) n.value →
      Access.eval (kind.write (Buffer.port p) a (.int n) order) b =
        (.error (.valueOutOfRange n.value (kind.sizeOn p)), b)) := by
  have hpos := kind.sizeOn_pos p
  have hsize := kind.sizeOn_le p
  obtain ⟨hsigned, hwider, -⟩ := intType?_spec ht p
  let data := bytesOfWord (UInt64.ofInt n.value) (kind.sizeOn p) (order.isBigEndian p)
  have hlength : data.length = kind.sizeOn p := length_bytesOfWord hsize _ _
  have hwrite : kind.write (Buffer.port p) a (.int n) order =
      if FitsBytes kind.isSigned (kind.sizeOn p) n.value then Buffer.writeBytes a data
      else throw (.valueOutOfRange n.value (kind.sizeOn p)) :=
    (write_int_eq_writeNumber ht n).trans (writeNumber_eq kind n.value)
  rw [hwrite]
  refine ⟨fun hfits => ?_, fun hfits => ?_⟩
  · have hread : ((Buffer.port p).readNumber kind.isSigned a (kind.sizeOn p) order).Yields
        (b.store a.toNat data) n.value (b.store a.toNat data) :=
      Buffer.readNumber_store hpos hsize hfits hm
    have hvalue : (Integer.wrap t n.value).value = n.value :=
      IntType.reduce_eq_self (hsigned ▸ hfits.mono hwider)
    rw [← hlength] at hm
    rw [if_pos hfits]
    refine ⟨_, .wrap t n.value, Buffer.writeBytes_yields_iff.mpr ⟨hm, rfl⟩,
      Buffer.keeps_store hm fun x hx => ?_, ?_, rfl, hvalue, Value.toInteger_int hvalue⟩
    · rwa [hlength] at hx
    · rw [read_eq_readNumber ht]
      simp only [Access.yields_map]
      exact ⟨_, ⟨_, hread, rfl⟩, rfl⟩
  · rw [if_neg hfits]
    rfl

/-- A `long` has four bytes under Windows, and takes no number past their range. -/
theorem ScalarKind.never_truncates_long :
    let p : Platform := ⟨.b64, .windows, .big⟩
    let b := Buffer.zeroed 4096 4
    (long.intType? = some .i64 ∧ b.Mapped (4096 : Address).toNat (long.sizeOn p)) ∧
    (FitsBytes long.isSigned (long.sizeOn p) (-2147483648) ∧
      ∃ b' m, (long.write (Buffer.port p) 4096 (.int (.wrap .i64 (-2147483648))) .native).Yields b ()
          b' ∧
        (long.read (Buffer.port p) 4096 .native).Yields b' (.int m) b' ∧
        (Value.int m).toInteger .i32 = .ok (.wrap .i32 (-2147483648)) ∧
        (Value.int m).toInteger .u64 = .error (.valueOutOfRange (-2147483648) 8)) ∧
    (¬ FitsBytes long.isSigned (long.sizeOn p) 2147483648 ∧
      Access.eval (long.write (Buffer.port p) 4096 (.int (.wrap .u32 2147483648)) .native) b =
        (.error (.valueOutOfRange 2147483648 4), b)) := by
  intro p b
  have hm : b.Mapped (4096 : Address).toNat (long.sizeOn p) := ⟨by decide, by decide, by decide⟩
  obtain ⟨b', m, hwrite, -, hread, -, -, hconvert⟩ :=
    (never_truncates rfl p .native hm (.wrap .i64 (-2147483648))).1 (by decide)
  refine ⟨⟨rfl, hm⟩, ⟨by decide, b', m, hwrite, hread, ?_, ?_⟩, by decide, ?_⟩
  · rw [hconvert]
    rfl
  · rw [hconvert]
    rfl
  · exact (never_truncates rfl p .native hm (.wrap .u32 2147483648)).2 (by decide)

end TypedMemory
