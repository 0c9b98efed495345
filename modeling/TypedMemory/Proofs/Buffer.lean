import Mathlib.Tactic.SplitIfs
import TypedMemory.Buffer
import TypedMemory.Proofs.Access
import TypedMemory.Proofs.Bytes
import TypedMemory.Proofs.Rounding

/-!
# Buffers as maps from addresses to bytes

`Buffer.byte?` is the byte that a buffer has at an address.  What a range of
addresses needs to be read or written is `Buffer.Mapped`, and `Buffer.Holds` says
which bytes lie there.  The three operations of the port become

* `readBytes_yields_iff`: reading gives the bytes that the buffer holds;
* `writeBytes_yields_iff`: writing succeeds where the range is mapped, and
  `byte?_store` says what it changes;
* `allocate_yields_iff`: a block is added behind the region, and `byte?_grown`
  says that it is zero and that nothing else changes.

Addresses are natural numbers here, so that ranges do not come around the end of
the address space.
-/

namespace TypedMemory

namespace Buffer

/-- The address behind the last byte. -/
def limit (b : Buffer) : Nat := b.base.toNat + b.memory.length

/-- The byte at an address. -/
def byte? (b : Buffer) (address : Nat) : Option UInt8 :=
  if b.base.toNat ≤ address then b.memory[address - b.base.toNat]? else none

/-- A range that can be read and written. -/
structure Mapped (b : Buffer) (address length : Nat) : Prop where
  base_le : b.base.toNat ≤ address
  le_limit : address + length ≤ b.limit
  /-- Counted from the base, the end of the range is an address again. -/
  inside : address + length < b.base.toNat + wordLimit

/-- The bytes `data` lie in the buffer from an address on. -/
structure Holds (b : Buffer) (address : Nat) (data : Bytes) : Prop where
  mapped : b.Mapped address data.length
  byte_eq : ∀ i, i < data.length → b.byte? (address + i) = data[i]?

variable {b : Buffer} {address length : Nat} {data : Bytes}

theorem byte?_of_le (h : b.base.toNat ≤ address) :
    b.byte? address = b.memory[address - b.base.toNat]? := if_pos h

/-- A part of a mapped range is mapped. -/
theorem Mapped.part (h : b.Mapped address length) {other size : Nat} (hlow : address ≤ other)
    (hhigh : other + size ≤ address + length) : b.Mapped other size := by
  obtain ⟨h₁, h₂, h₃⟩ := h
  exact ⟨by omega, by omega, by omega⟩

/-- A move from one range of a region to another does not go around the address space. -/
theorem Mapped.toNat_move (hsize : b.memory.length < offsetLimit) {a : Address} {distance : Int}
    {other : Nat} (h : b.Mapped a.toNat length) (h' : b.Mapped (a.move distance).toNat other)
    (hlow : -(offsetLimit : Int) < distance) (hhigh : distance < offsetLimit) :
    ((a.move distance).toNat : Int) = a.toNat + distance := by
  have hmove : ((a.move distance).toNat : Int) = (a.toNat + distance) % wordLimit := by
    rw [Address.move, toNat_ofInt]
  have hword : ((wordLimit : Nat) : Int) = 0x10000000000000000 := rfl
  have hbase := h.base_le
  have hbase' := h'.base_le
  have hlimit := h.le_limit
  have hlimit' := h'.le_limit
  rw [limit] at hlimit hlimit'
  rw [hword] at hmove
  unfold offsetLimit at *
  omega

/-- The bytes of a range determine what it holds. -/
theorem Holds.unique {other : Bytes} (h : b.Holds address data) (h' : b.Holds address other)
    (hlen : data.length = other.length) : data = other := by
  apply List.ext_getElem? fun i => ?_
  by_cases hi : i < data.length
  · rw [← h.byte_eq i hi, ← h'.byte_eq i (by omega)]
  · rw [List.getElem?_eq_none (by omega), List.getElem?_eq_none (by omega)]

theorem length_part {first size : Nat} (h : first + size ≤ data.length) :
    ((data.drop first).take size).length = size := by
  rw [List.length_take, List.length_drop]
  omega

/-- A part of what a range holds lies in the part of the range. -/
theorem Holds.part (h : b.Holds address data) (first size : Nat)
    (hsize : first + size ≤ data.length) :
    b.Holds (address + first) ((data.drop first).take size) := by
  have hlen := length_part hsize
  refine ⟨h.mapped.part (by omega) (by omega), fun i hi => ?_⟩
  rw [hlen] at hi
  rw [Nat.add_assoc, h.byte_eq _ (by omega), List.getElem?_take_of_lt hi, List.getElem?_drop]

theorem Holds.take (h : b.Holds address data) (size : Nat) : b.Holds address (data.take size) := by
  have h' := h.part 0 (min size data.length) (by omega)
  rwa [Nat.add_zero, List.drop_zero, ← List.take_eq_take_min] at h'

/-- Two runs of bytes that lie next to each other. -/
theorem Holds.append {more : Bytes} (h : b.Holds address data)
    (h' : b.Holds (address + data.length) more) : b.Holds address (data ++ more) := by
  obtain ⟨h₁, -, -⟩ := h.mapped
  obtain ⟨-, h₂, h₃⟩ := h'.mapped
  refine ⟨⟨h₁, by rw [List.length_append]; omega, by rw [List.length_append]; omega⟩,
    fun i hi => ?_⟩
  by_cases hin : i < data.length
  · rw [List.getElem?_append_left hin, h.byte_eq i hin]
  · rw [List.length_append] at hi
    rw [List.getElem?_append_right (by omega), ← h'.byte_eq _ (by omega)]
    congr 1
    omega

/-! ### Reading -/

/-- A mapped range holds the bytes of the memory that are as far behind the base. -/
theorem Mapped.holds_part (h : b.Mapped address length) :
    b.Holds address ((b.memory.drop (address - b.base.toNat)).take length) := by
  have hb := h.base_le
  have hl := h.le_limit
  rw [limit] at hl
  have hlen : ((b.memory.drop (address - b.base.toNat)).take length).length = length :=
    length_part (by omega)
  refine ⟨by rwa [hlen], fun i hi => ?_⟩
  rw [byte?_of_le (by omega), List.getElem?_take_of_lt (by omega), List.getElem?_drop]
  congr 1
  omega

theorem Mapped.exists_holds (h : b.Mapped address length) :
    ∃ data : Bytes, data.length = length ∧ b.Holds address data := by
  have hb := h.base_le
  have hl := h.le_limit
  rw [limit] at hl
  exact ⟨_, length_part (by omega), h.holds_part⟩

theorem position_eq_ok_iff {a : Address} {first : Nat} :
    b.position a length = .ok first ↔
      b.Mapped a.toNat length ∧ a.toNat = b.base.toNat + first := by
  have hlimit : b.limit = b.base.toNat + b.memory.length := rfl
  unfold position
  simp only [UInt64.lt_iff_toNat_lt]
  constructor
  · intro h
    split_ifs at h with h₁ h₂ h₃
    cases h
    exact ⟨⟨by omega, by omega, by omega⟩, by omega⟩
  · rintro ⟨⟨h₁, h₂, h₃⟩, hfirst⟩
    rw [if_neg (by omega), if_neg (by omega), if_neg (by omega)]
    congr 1
    omega

theorem readBytes_yields_iff {a : Address} {b' : Buffer} :
    (readBytes a length).Yields b data b' ↔
      b' = b ∧ data.length = length ∧ b.Holds a.toNat data := by
  have key : (readBytes a length).Yields b data b' ↔ ∃ first,
      (b.position a length = .ok first ∧ b = b') ∧ (b.memory.drop first).take length = data := by
    simp [readBytes]
  rw [key]
  constructor
  · rintro ⟨first, ⟨hpos, rfl⟩, rfl⟩
    obtain ⟨hm, hfirst⟩ := position_eq_ok_iff.mp hpos
    have hl := hm.le_limit
    rw [limit] at hl
    have hlen : ((b.memory.drop first).take length).length = length := length_part (by omega)
    refine ⟨rfl, hlen, by rwa [hlen], fun i hi => ?_⟩
    rw [byte?_of_le (by omega), List.getElem?_take_of_lt (by omega), List.getElem?_drop]
    congr 1
    omega
  · rintro ⟨rfl, rfl, h⟩
    have hb := h.mapped.base_le
    refine ⟨a.toNat - b'.base.toNat, ⟨position_eq_ok_iff.mpr ⟨h.mapped, by omega⟩, rfl⟩, ?_⟩
    have hl := h.mapped.le_limit
    rw [limit] at hl
    apply List.ext_getElem? fun i => ?_
    by_cases hi : i < data.length
    · rw [List.getElem?_take_of_lt hi, List.getElem?_drop, ← h.byte_eq i hi,
        byte?_of_le (by omega)]
      congr 1
      omega
    · rw [List.getElem?_eq_none (by rw [List.length_take]; omega),
        List.getElem?_eq_none (by omega)]

/-! ### Writing -/

/-- The buffer after `data` was written from an address on. -/
def store (b : Buffer) (address : Nat) (data : Bytes) : Buffer :=
  { b with memory := overwrite b.memory (address - b.base.toNat) data }

@[simp] theorem base_store : (b.store address data).base = b.base := rfl

@[simp] theorem allocations_store : (b.store address data).allocations = b.allocations := rfl

theorem writeBytes_yields_iff {a : Address} {u : Unit} {b' : Buffer} :
    (writeBytes a data).Yields b u b' ↔
      b.Mapped a.toNat data.length ∧ b' = b.store a.toNat data := by
  have key : (writeBytes a data).Yields b u b' ↔ ∃ first, b.position a data.length = .ok first ∧
      { b with memory := overwrite b.memory first data } = b' := by
    simp [writeBytes]
  rw [key]
  constructor
  · rintro ⟨first, hpos, rfl⟩
    obtain ⟨hm, hfirst⟩ := position_eq_ok_iff.mp hpos
    exact ⟨hm, by rw [store, hfirst, Nat.add_sub_cancel_left]⟩
  · rintro ⟨hm, rfl⟩
    have hb := hm.base_le
    exact ⟨_, position_eq_ok_iff.mpr ⟨hm, (Nat.add_sub_cancel' hb).symm⟩, rfl⟩

theorem length_overwrite {memory : Bytes} {first : Nat}
    (h : first + data.length ≤ memory.length) :
    (overwrite memory first data).length = memory.length := by
  simp only [overwrite, List.length_append, List.length_take, List.length_drop]
  omega

theorem limit_store (h : b.Mapped address data.length) :
    (b.store address data).limit = b.limit := by
  have h₁ := h.base_le
  have h₂ := h.le_limit
  rw [limit] at h₂
  rw [limit, limit, store, length_overwrite (by omega)]

theorem mapped_store (h : b.Mapped address data.length) {other size : Nat} :
    (b.store address data).Mapped other size ↔ b.Mapped other size := by
  constructor
  · rintro ⟨h₁, h₂, h₃⟩
    exact ⟨h₁, by rwa [limit_store h] at h₂, h₃⟩
  · rintro ⟨h₁, h₂, h₃⟩
    exact ⟨h₁, by rwa [limit_store h], h₃⟩

/-- Writing changes the bytes of its range and no others. -/
theorem byte?_store (h : b.Mapped address data.length) (x : Nat) :
    (b.store address data).byte? x =
      if address ≤ x ∧ x < address + data.length then data[x - address]? else b.byte? x := by
  have h₁ := h.base_le
  have h₂ := h.le_limit
  rw [limit] at h₂
  by_cases hx : b.base.toNat ≤ x
  · rw [byte?_of_le hx, byte?_of_le (b := b.store address data) hx, store, overwrite]
    split
    next hin =>
      rw [List.getElem?_append_left (by simp; omega), List.getElem?_append_right (by simp; omega),
        List.length_take]
      congr 1
      dsimp only
      omega
    next hout =>
      simp only
      by_cases hlow : x < address
      · rw [List.getElem?_append_left (by simp; omega), List.getElem?_append_left (by simp; omega),
          List.getElem?_take_of_lt (by omega)]
      · rw [List.getElem?_append_right (by simp; omega), List.getElem?_drop]
        congr 1
        simp only [List.length_append, List.length_take]
        omega
  · rw [if_neg (by omega), byte?, byte?, if_neg hx, if_neg (by simpa using hx)]

theorem Mapped.holds_store (h : b.Mapped address data.length) :
    (b.store address data).Holds address data := by
  refine ⟨(mapped_store h).mpr h, fun i hi => ?_⟩
  rw [byte?_store h, if_pos (by omega), Nat.add_sub_cancel_left]

/-- A buffer is its region and the bytes in it. -/
theorem ext_byte? {other : Buffer} (hbase : b.base = other.base)
    (hallocations : b.allocations = other.allocations)
    (hbyte : ∀ x, b.byte? x = other.byte? x) : b = other := by
  obtain ⟨base, memory, allocations⟩ := b
  obtain ⟨base', memory', allocations'⟩ := other
  obtain rfl : base = base' := hbase
  obtain rfl : allocations = allocations' := hallocations
  congr 1
  apply List.ext_getElem? fun i => ?_
  have hi := hbyte (base.toNat + i)
  rwa [byte?_of_le (Nat.le_add_right _ _), byte?_of_le (Nat.le_add_right _ _),
    Nat.add_sub_cancel_left] at hi

/-- Writes to ranges that do not meet can change places. -/
theorem store_comm {other : Nat} {more : Bytes} (h : b.Mapped address data.length)
    (h' : b.Mapped other more.length)
    (hapart : ∀ x, address ≤ x ∧ x < address + data.length →
      ¬ (other ≤ x ∧ x < other + more.length)) :
    (b.store address data).store other more = (b.store other more).store address data := by
  refine ext_byte? rfl rfl fun x => ?_
  rw [byte?_store ((mapped_store h).mpr h'), byte?_store h, byte?_store ((mapped_store h').mpr h),
    byte?_store h']
  by_cases hx : address ≤ x ∧ x < address + data.length
  · rw [if_pos hx, if_neg (hapart x hx), if_pos hx]
  · rw [if_neg hx, if_neg hx]

/-- Writing what is there already changes nothing. -/
theorem Holds.store_eq_self (h : b.Holds address data) : b.store address data = b := by
  refine ext_byte? rfl rfl fun x => ?_
  rw [byte?_store h.mapped]
  split
  next hin =>
    have hx := h.byte_eq (x - address) (by omega)
    rw [Nat.add_sub_cancel' hin.1] at hx
    exact hx.symm
  next => rfl

/-! ### Allocating -/

/-- The address of the next block. -/
def nextBlock (b : Buffer) : Address :=
  b.base + UInt64.ofNat (roundUp b.memory.length blockAlignment)

/-- The buffer after a block of `size` bytes was added. -/
def grown (b : Buffer) (size : Nat) : Buffer :=
  { b with
    memory := b.memory ++
      List.replicate (roundUp b.memory.length blockAlignment + size - b.memory.length) 0
    allocations := b.allocations ++ [⟨b.nextBlock, size⟩] }

@[simp] theorem base_grown (b : Buffer) (size : Nat) : (b.grown size).base = b.base := rfl

@[simp] theorem allocations_grown (b : Buffer) (size : Nat) :
    (b.grown size).allocations = b.allocations ++ [⟨b.nextBlock, size⟩] := rfl

theorem allocate_yields_iff {size : Nat} {a : Address} {b' : Buffer} :
    (allocate size).Yields b a b' ↔ size ≠ 0 ∧ a = b.nextBlock ∧ b' = b.grown size := by
  unfold allocate
  split
  next h => simp [h]
  next h =>
    simp only [Access.yields_bind, Access.yields_get, Access.yields_set, Access.yields_pure]
    constructor
    · rintro ⟨_, _, ⟨rfl, rfl⟩, _, _, rfl, rfl, rfl⟩
      exact ⟨h, rfl, rfl⟩
    · rintro ⟨-, rfl, rfl⟩
      exact ⟨b, b, ⟨rfl, rfl⟩, (), _, rfl, rfl, rfl⟩

theorem limit_grown (b : Buffer) (size : Nat) :
    (b.grown size).limit = b.base.toNat + roundUp b.memory.length blockAlignment + size := by
  have h := le_roundUp b.memory.length blockAlignment
  simp only [limit, grown, List.length_append, List.length_replicate]
  omega

theorem limit_le_limit_grown (b : Buffer) (size : Nat) : b.limit ≤ (b.grown size).limit := by
  have h := le_roundUp b.memory.length blockAlignment
  rw [limit_grown, limit]
  omega

/-- A new byte is zero, and the others stay. -/
theorem byte?_grown (b : Buffer) (size x : Nat) :
    (b.grown size).byte? x =
      if b.limit ≤ x ∧ x < (b.grown size).limit then some 0 else b.byte? x := by
  have hle := limit_le_limit_grown b size
  have hbase : b.base.toNat ≤ b.limit := Nat.le_add_right _ _
  by_cases hx : b.base.toNat ≤ x
  · rw [byte?_of_le hx, byte?_of_le (b := b.grown size) hx, base_grown]
    rw [limit_grown] at hle ⊢
    rw [limit] at *
    simp only [grown]
    split
    next hin =>
      rw [List.getElem?_append_right (by omega), List.getElem?_replicate_of_lt (by omega)]
    next hout =>
      by_cases hlow : x - b.base.toNat < b.memory.length
      · rw [List.getElem?_append_left hlow]
      · rw [List.getElem?_append_right (by omega), List.getElem?_eq_none (by simp; omega),
          List.getElem?_eq_none (by omega)]
  · rw [if_neg (by omega), byte?, byte?, if_neg hx, if_neg (by simpa using hx)]

theorem toNat_nextBlock_of_lt
    (h : b.base.toNat + roundUp b.memory.length blockAlignment < wordLimit) :
    b.nextBlock.toNat = b.base.toNat + roundUp b.memory.length blockAlignment := by
  rw [nextBlock, UInt64.toNat_add, toNat_ofNat_of_lt (by omega)]
  exact Nat.mod_eq_of_lt h

/-- The next block lies behind the region, if the region leaves room for an address. -/
theorem toNat_nextBlock (hroom : roundUp b.memory.length blockAlignment < wordLimit)
    (hbase : b.base.toNat ≤ b.nextBlock.toNat) :
    b.nextBlock.toNat = b.base.toNat + roundUp b.memory.length blockAlignment := by
  have hlt : b.base.toNat < wordLimit := b.base.toNat_lt
  by_cases hwrap : b.base.toNat + roundUp b.memory.length blockAlignment < wordLimit
  · exact toNat_nextBlock_of_lt hwrap
  · rw [nextBlock, UInt64.toNat_add, toNat_ofNat_of_lt hroom,
      Nat.mod_eq_sub_mod (Nat.le_of_not_lt hwrap), Nat.mod_eq_of_lt (by omega)] at hbase
    omega

theorem limit_le_nextBlock (hroom : roundUp b.memory.length blockAlignment < wordLimit)
    (hbase : b.base.toNat ≤ b.nextBlock.toNat) : b.limit ≤ b.nextBlock.toNat := by
  have hle := le_roundUp b.memory.length blockAlignment
  rw [toNat_nextBlock hroom hbase, limit]
  omega

theorem roundUp_lt_wordLimit {n : Nat} (h : n < offsetLimit) :
    roundUp n blockAlignment < wordLimit := by
  have hround := roundUp_lt_add n (by decide : 0 < blockAlignment)
  have halign : blockAlignment = 16 := rfl
  unfold offsetLimit at h
  unfold wordLimit
  omega

/-- A part of the next block that is not below the region does not go around the address
space. -/
theorem nextBlock_add_lt (hsize : b.memory.length < offsetLimit) {offset : Nat}
    (hoffset : offset ≤ 24) (hbase : b.base.toNat ≤ (b.nextBlock + UInt64.ofNat offset).toNat) :
    b.base.toNat + roundUp b.memory.length blockAlignment + offset < wordLimit := by
  have hround := roundUp_lt_wordLimit hsize
  have hhigh := roundUp_lt_add b.memory.length (by decide : 0 < blockAlignment)
  have hlt : b.base.toNat < wordLimit := b.base.toNat_lt
  have halign : blockAlignment = 16 := rfl
  have hpart : offset < wordLimit := by
    unfold wordLimit
    omega
  unfold offsetLimit at hsize
  unfold wordLimit at hlt ⊢
  rw [UInt64.toNat_add, nextBlock, UInt64.toNat_add, toNat_ofNat_of_lt hround,
    toNat_ofNat_of_lt hpart] at hbase
  omega

/-- The addresses of a range. -/
def Within (first size x : Nat) : Prop := first ≤ x ∧ x < first + size

/-- The bytes of `b` outside `changed` are the same in `b'`, which may be longer. -/
structure Keeps (b b' : Buffer) (changed : Nat → Prop) : Prop where
  base_eq : b'.base = b.base
  limit_le : b.limit ≤ b'.limit
  byte_eq : ∀ x, x < b.limit → ¬ changed x → b'.byte? x = b.byte? x

variable {b' : Buffer} {changed : Nat → Prop}

theorem Keeps.refl (b : Buffer) (changed : Nat → Prop) : Keeps b b changed :=
  ⟨rfl, Nat.le_refl _, fun _ _ _ => rfl⟩

theorem Keeps.trans {b'' : Buffer} (h : Keeps b b' changed) (h' : Keeps b' b'' changed) :
    Keeps b b'' changed := by
  refine ⟨h'.base_eq.trans h.base_eq, h.limit_le.trans h'.limit_le, fun x hx hkept => ?_⟩
  rw [h'.byte_eq x (hx.trans_le h.limit_le) hkept, h.byte_eq x hx hkept]

theorem Keeps.mono {more : Nat → Prop} (h : Keeps b b' changed) (hmore : ∀ x, changed x → more x) :
    Keeps b b' more :=
  ⟨h.base_eq, h.limit_le, fun x hx hkept => h.byte_eq x hx fun hchanged => hkept (hmore x hchanged)⟩

/-- Only addresses of `b` have to be looked at. -/
theorem Keeps.of_lt_limit {more : Nat → Prop} (h : Keeps b b' changed)
    (hmore : ∀ x, x < b.limit → changed x → more x) : Keeps b b' more :=
  ⟨h.base_eq, h.limit_le, fun x hx hkept =>
    h.byte_eq x hx fun hchanged => hkept (hmore x hx hchanged)⟩

theorem keeps_store (h : b.Mapped address data.length)
    (hin : ∀ x, Within address data.length x → changed x) :
    Keeps b (b.store address data) changed := by
  refine ⟨rfl, (limit_store h).ge, fun x hx hkept => ?_⟩
  rw [byte?_store h, if_neg]
  exact fun hx => hkept (hin x hx)

theorem keeps_grown (b : Buffer) (size : Nat) (changed : Nat → Prop) :
    Keeps b (b.grown size) changed := by
  refine ⟨rfl, limit_le_limit_grown b size, fun x hx hkept => ?_⟩
  rw [byte?_grown, if_neg (by omega)]

theorem Keeps.mapped (h : Keeps b b' changed) (hm : b.Mapped address length) :
    b'.Mapped address length := by
  obtain ⟨h₁, h₂, h₃⟩ := hm
  rw [← h.base_eq] at h₁ h₃
  exact ⟨h₁, h₂.trans h.limit_le, h₃⟩

theorem Keeps.holds (h : Keeps b b' changed) (hd : b.Holds address data)
    (hout : ∀ x, Within address data.length x → ¬ changed x) : b'.Holds address data := by
  have hl := hd.mapped.le_limit
  refine ⟨h.mapped hd.mapped, fun i hi => ?_⟩
  rw [h.byte_eq _ (by omega) (hout _ ⟨by omega, by omega⟩), hd.byte_eq i hi]

end Buffer

end TypedMemory
