import TypedMemory.Proofs.Buffer
import TypedMemory.Proofs.Port
import TypedMemory.Space

/-!
# Words in buffers

`Buffer.HoldsWord` says that a word as wide as a pointer lies at an address, in a
given byte order.  Reading a word finds the one that is held
(`readWord_yields_iff`), and writing makes one be held (`writeWord_yields_iff`,
`Mapped.holdsWord_store`), if it fits the width.
-/

namespace TypedMemory

namespace Platform

variable (p : Platform)

theorem pointerSize_cases :
    p.pointerSize = 1 ∨ p.pointerSize = 2 ∨ p.pointerSize = 4 ∨ p.pointerSize = 8 := by
  unfold pointerSize
  cases p.bits <;> decide

theorem pointerSize_pos : 0 < p.pointerSize := by
  unfold pointerSize
  cases p.bits <;> decide

theorem pointerSize_le : p.pointerSize ≤ widestScalar := by
  unfold pointerSize
  cases p.bits <;> decide

end Platform

namespace Port

variable {σ : Type} {port : Port σ} {a : Address} {order : ByteOrder}

theorem readWord_eq :
    port.readWord a order =
      (wordOfBytes · (order.isBigEndian port.platform)) <$>
        port.readExactly a port.platform.pointerSize :=
  readUnsigned_eq port.platform.pointerSize_pos port.platform.pointerSize_le

theorem writeWord_eq (w : UInt64) :
    port.writeWord a w order =
      if w.toNat < 256 ^ port.platform.pointerSize then
        port.writeBytes a
          (bytesOfWord w port.platform.pointerSize (order.isBigEndian port.platform))
      else throw (.valueOutOfRange w.toNat port.platform.pointerSize) :=
  writeUnsigned_eq port.platform.pointerSize_pos port.platform.pointerSize_le w

end Port

namespace Buffer

/-- The memory of a process on `p` with the types of `s`. -/
def space (p : Platform) (s : Schema) : Space Buffer := { port p with schema := s }

variable {p : Platform} {b b' : Buffer} {a : Address} {order : ByteOrder}

@[simp] theorem toPort_space (s : Schema) : (space p s).toPort = port p := rfl

@[simp] theorem layout_space (s : Schema) (id : TypeId) :
    (space p s).layout id = s.layout p id := rfl

@[simp] theorem readBytes_space (s : Schema) : (space p s).readBytes = readBytes := rfl

@[simp] theorem writeBytes_space (s : Schema) : (space p s).writeBytes = writeBytes := rfl

@[simp] theorem allocate_space (s : Schema) : (space p s).allocate = allocate := rfl

theorem readExactly_yields_iff {length : Nat} {data : Bytes} :
    ((port p).readExactly a length).Yields b data b' ↔
      b' = b ∧ data.length = length ∧ b.Holds a.toNat data := by
  unfold Port.readExactly
  rw [Access.yields_bind, ← readBytes_yields_iff]
  constructor
  · rintro ⟨bytes, t, hread, hyields⟩
    rw [if_pos (readBytes_yields_iff.mp hread).2.1, Access.yields_pure] at hyields
    obtain ⟨rfl, rfl⟩ := hyields
    exact hread
  · intro hread
    refine ⟨data, b', hread, ?_⟩
    rw [if_pos (readBytes_yields_iff.mp hread).2.1]
    exact Access.yields_pure.mpr ⟨rfl, rfl⟩

theorem readUnsigned_yields_iff {size : Nat} (hpos : 0 < size) (hsize : size ≤ widestScalar)
    {value : UInt64} :
    ((port p).readUnsigned a size order).Yields b value b' ↔
      b' = b ∧ value.toNat < 256 ^ size ∧
        b.Holds a.toNat (bytesOfWord value size (order.isBigEndian p)) := by
  unfold Port.readUnsigned
  rw [Port.requireScalarSize_eq hpos hsize, pure_bind, Access.yields_bind]
  constructor
  · rintro ⟨bytes, t, hread, hyields⟩
    obtain ⟨rfl, rfl, hholds⟩ := readExactly_yields_iff.mp hread
    obtain ⟨rfl, rfl⟩ := Access.yields_pure.mp hyields
    refine ⟨rfl, wordOfBytes_lt hsize _, ?_⟩
    rwa [show (port p).isBigEndian order = order.isBigEndian p from rfl,
      bytesOfWord_wordOfBytes hsize]
  · rintro ⟨rfl, hlt, hholds⟩
    refine ⟨_, b', readExactly_yields_iff.mpr ⟨rfl, length_bytesOfWord hsize _ _, hholds⟩, ?_⟩
    exact Access.yields_pure.mpr ⟨wordOfBytes_bytesOfWord hsize hlt _, rfl⟩

theorem writeUnsigned_yields_iff {size : Nat} (hpos : 0 < size) (hsize : size ≤ widestScalar)
    {value : UInt64} {u : Unit} :
    ((port p).writeUnsigned a size value order).Yields b u b' ↔
      value.toNat < 256 ^ size ∧ b.Mapped a.toNat size ∧
        b' = b.store a.toNat (bytesOfWord value size (order.isBigEndian p)) := by
  rw [Port.writeUnsigned_eq hpos hsize]
  split
  next h =>
    refine writeBytes_yields_iff.trans ?_
    rw [length_bytesOfWord hsize]
    exact ⟨fun hw => ⟨h, hw⟩, fun hw => hw.2⟩
  next h => exact ⟨fun hw => absurd hw Access.yields_throw, fun hw => absurd hw.1 h⟩

/-- What is left of a signed write is that it fills its range. -/
theorem writeSigned_yields {size : Nat} (hpos : 0 < size) (hsize : size ≤ widestScalar)
    {value : Int} {u : Unit} (h : ((port p).writeSigned a size value order).Yields b u b') :
    ∃ data : Bytes, data.length = size ∧ b.Mapped a.toNat size ∧ b' = b.store a.toNat data := by
  unfold Port.writeSigned at h
  rw [Port.requireScalarSize_eq hpos hsize, pure_bind] at h
  split at h
  next hfits =>
    obtain ⟨hm, hb⟩ := writeBytes_yields_iff.mp h
    rw [length_bytesOfWord hsize] at hm
    exact ⟨_, length_bytesOfWord hsize _ _, hm, hb⟩
  next hfits => exact absurd h Access.yields_throw

/-! ### Words as wide as a pointer -/

/-- The bytes of a word in memory. -/
def wordBytes (p : Platform) (order : ByteOrder) (value : UInt64) : Bytes :=
  bytesOfWord value p.pointerSize (order.isBigEndian p)

@[simp] theorem length_wordBytes (p : Platform) (order : ByteOrder) (value : UInt64) :
    (wordBytes p order value).length = p.pointerSize :=
  length_bytesOfWord p.pointerSize_le _ _

/-- A word lies in the buffer at an address. -/
structure HoldsWord (b : Buffer) (p : Platform) (order : ByteOrder) (address : Nat)
    (value : UInt64) : Prop where
  fits : value.toNat < 256 ^ p.pointerSize
  holds : b.Holds address (wordBytes p order value)

theorem HoldsWord.mapped {address : Nat} {value : UInt64}
    (h : b.HoldsWord p order address value) : b.Mapped address p.pointerSize := by
  have hm := h.holds.mapped
  rwa [length_wordBytes] at hm

theorem HoldsWord.unique {address : Nat} {value other : UInt64}
    (h : b.HoldsWord p order address value) (h' : b.HoldsWord p order address other) :
    value = other := by
  have he := h.holds.unique h'.holds (by rw [length_wordBytes, length_wordBytes])
  rw [← wordOfBytes_bytesOfWord p.pointerSize_le h.fits (order.isBigEndian p),
    ← wordOfBytes_bytesOfWord p.pointerSize_le h'.fits (order.isBigEndian p)]
  exact congrArg (wordOfBytes · (order.isBigEndian p)) he

theorem Mapped.holdsWord_store {address : Nat} {value : UInt64}
    (h : b.Mapped address p.pointerSize) (hfits : value.toNat < 256 ^ p.pointerSize) :
    (b.store address (wordBytes p order value)).HoldsWord p order address value :=
  ⟨hfits, Mapped.holds_store (by rwa [length_wordBytes])⟩

/-- Some word lies wherever there is room for one. -/
theorem Mapped.exists_holdsWord {address : Nat} (h : b.Mapped address p.pointerSize)
    (order : ByteOrder) : ∃ value, b.HoldsWord p order address value := by
  obtain ⟨data, hlength, hholds⟩ := h.exists_holds
  have hsize := p.pointerSize_le
  rw [← hlength] at hsize
  refine ⟨wordOfBytes data (order.isBigEndian p), ?_, ?_⟩
  · rw [← hlength]
    exact wordOfBytes_lt hsize _
  · rwa [wordBytes, ← hlength, bytesOfWord_wordOfBytes hsize]

/-- A word of zeros. -/
theorem Holds.zeroWord {first size : Nat} (h : b.Holds first (List.replicate size 0))
    {offset : Nat} (hin : offset + p.pointerSize ≤ size) (order : ByteOrder) :
    b.HoldsWord p order (first + offset) 0 := by
  have hpart := h.part offset p.pointerSize (by rwa [List.length_replicate])
  rw [List.drop_replicate, List.take_replicate, Nat.min_eq_left (by omega)] at hpart
  refine ⟨Nat.pow_pos (by decide), ?_⟩
  rwa [wordBytes, bytesOfWord_zero p.pointerSize_le]

theorem readWord_yields_iff {value : UInt64} :
    ((port p).readWord a order).Yields b value b' ↔
      b' = b ∧ b.HoldsWord p order a.toNat value := by
  refine (readUnsigned_yields_iff p.pointerSize_pos p.pointerSize_le).trans ?_
  exact ⟨fun ⟨h, hfits, hholds⟩ => ⟨h, hfits, hholds⟩, fun ⟨h, hfits, hholds⟩ => ⟨h, hfits, hholds⟩⟩

theorem writeWord_yields_iff {value : UInt64} {u : Unit} :
    ((port p).writeWord a value order).Yields b u b' ↔
      value.toNat < 256 ^ p.pointerSize ∧ b.Mapped a.toNat p.pointerSize ∧
        b' = b.store a.toNat (wordBytes p order value) :=
  writeUnsigned_yields_iff p.pointerSize_pos p.pointerSize_le

theorem Keeps.holdsWord {changed : Nat → Prop} {address : Nat} {value : UInt64}
    (h : Keeps b b' changed) (hw : b.HoldsWord p order address value)
    (hout : ∀ x, Within address p.pointerSize x → ¬ changed x) :
    b'.HoldsWord p order address value :=
  ⟨hw.fits, h.holds hw.holds (by rwa [length_wordBytes])⟩

/-! ### Numbers in words -/

/-- The word at an address is a number. -/
structure HoldsCount (b : Buffer) (p : Platform) (order : ByteOrder) (address count : Nat) :
    Prop where
  lt : count < wordLimit
  word : b.HoldsWord p order address (UInt64.ofNat count)

theorem HoldsWord.count {address : Nat} {value : UInt64} (h : b.HoldsWord p order address value) :
    b.HoldsCount p order address value.toNat :=
  ⟨value.toNat_lt, by rwa [UInt64.ofNat_toNat]⟩

theorem HoldsCount.unique {address count other : Nat} (h : b.HoldsCount p order address count)
    (h' : b.HoldsCount p order address other) : count = other := by
  have hword := congrArg UInt64.toNat (h.word.unique h'.word)
  rwa [toNat_ofNat_of_lt h.lt, toNat_ofNat_of_lt h'.lt] at hword

theorem Mapped.holdsCount_store {address count : Nat} (h : b.Mapped address p.pointerSize)
    (hlt : count < wordLimit) (hfits : (UInt64.ofNat count).toNat < 256 ^ p.pointerSize) :
    (b.store address (wordBytes p order (UInt64.ofNat count))).HoldsCount p order address count :=
  ⟨hlt, h.holdsWord_store hfits⟩

theorem Keeps.holdsCount {changed : Nat → Prop} {address count : Nat} (h : Keeps b b' changed)
    (hc : b.HoldsCount p order address count)
    (hout : ∀ x, Within address p.pointerSize x → ¬ changed x) :
    b'.HoldsCount p order address count :=
  ⟨hc.lt, h.holdsWord hc.word hout⟩

/-! ### Signed words -/

/-- The word at an address is a number in two's complement. -/
structure HoldsSigned (b : Buffer) (p : Platform) (order : ByteOrder) (address : Nat) (n : Int) :
    Prop where
  fits : FitsBytes true p.pointerSize n
  holds : b.Holds address (wordBytes p order (UInt64.ofInt n))

theorem Mapped.holdsSigned_store {address : Nat} {n : Int} (h : b.Mapped address p.pointerSize)
    (hfits : FitsBytes true p.pointerSize n) :
    (b.store address (wordBytes p order (UInt64.ofInt n))).HoldsSigned p order address n :=
  ⟨hfits, Mapped.holds_store (by rwa [length_wordBytes])⟩

/-- Some number lies wherever there is room for one. -/
theorem Mapped.exists_holdsSigned {address : Nat} (h : b.Mapped address p.pointerSize)
    (order : ByteOrder) : ∃ n, b.HoldsSigned p order address n := by
  obtain ⟨data, hlength, hholds⟩ := h.exists_holds
  obtain ⟨hfits, hdata⟩ := (signExtend_wordOfBytes_eq_iff p.pointerSize_pos p.pointerSize_le hlength
    (order.isBigEndian p)).mp rfl
  refine ⟨_, hfits, ?_⟩
  rwa [wordBytes, ← hdata]

theorem Keeps.holdsSigned {changed : Nat → Prop} {address : Nat} {n : Int} (h : Keeps b b' changed)
    (hn : b.HoldsSigned p order address n)
    (hout : ∀ x, Within address p.pointerSize x → ¬ changed x) :
    b'.HoldsSigned p order address n :=
  ⟨hn.fits, h.holds hn.holds (by rwa [length_wordBytes])⟩

theorem readSignedWord_yields_iff {n : Int} :
    ((port p).readSignedWord a order).Yields b n b' ↔
      b' = b ∧ b.HoldsSigned p order a.toNat n := by
  have hread : (port p).readSignedWord a order = _ :=
    Port.readSigned_eq p.pointerSize_pos p.pointerSize_le
  rw [hread, Access.yields_map]
  constructor
  · rintro ⟨data, hdata, hn⟩
    obtain ⟨rfl, hlength, hholds⟩ := readExactly_yields_iff.mp hdata
    obtain ⟨hfits, rfl⟩ := (signExtend_wordOfBytes_eq_iff p.pointerSize_pos p.pointerSize_le
      hlength (order.isBigEndian p)).mp hn
    exact ⟨rfl, hfits, hholds⟩
  · rintro ⟨rfl, hfits, hholds⟩
    have hlength := length_wordBytes p order (UInt64.ofInt n)
    exact ⟨_, readExactly_yields_iff.mpr ⟨rfl, hlength, hholds⟩,
      (signExtend_wordOfBytes_eq_iff p.pointerSize_pos p.pointerSize_le hlength _).mpr
        ⟨hfits, rfl⟩⟩

theorem writeSignedWord_yields_iff {n : Int} (hword : FitsBytes true widestScalar n) {u : Unit} :
    ((port p).writeSignedWord a n order).Yields b u b' ↔
      FitsBytes true p.pointerSize n ∧ b.Mapped a.toNat p.pointerSize ∧
        b' = b.store a.toNat (wordBytes p order (UInt64.ofInt n)) := by
  have hwrite : (port p).writeSignedWord a n order = _ :=
    Port.writeSigned_eq p.pointerSize_pos p.pointerSize_le hword
  rw [hwrite]
  split
  next hfits =>
    refine writeBytes_yields_iff.trans ?_
    rw [length_bytesOfWord p.pointerSize_le]
    exact ⟨fun h => ⟨hfits, h⟩, fun h => h.2⟩
  next hfits => exact ⟨fun h => absurd h Access.yields_throw, fun h => absurd h.1 hfits⟩

end Buffer

end TypedMemory
