import TypedMemory.Proofs.StringObject.Counted
import TypedMemory.Proofs.StringObject.Short.Written
import TypedMemory.Value.Slot

/-!
# String objects that own their blocks

`StringSlot.State` says what a buffer holds at a string object of either
representation, with the text that the object has and the block that it owns.

* `State.read_yields`: such an object is read as its text.
* `State.keeps`: it stays as it is while its own bytes stay.
* `State.written`: a write changes bytes of its own only, and leaves it with the new text
  in the same block or in a new one.
-/

namespace TypedMemory

open StringObject

/-! ### Representations -/

namespace StringAbi

variable {p : Platform} {s : Schema} {abi : StringAbi} {a : Address} {order : ByteOrder}
  {text : String}

theorem resolve_cases (abi : StringAbi) (p : Platform) :
    abi.resolve p = .sso ∨ abi.resolve p = .refCounted := by
  cases abi with
  | sso => exact Or.inl rfl
  | refCounted => exact Or.inr rfl
  | native =>
    unfold resolve
    cases p.os.isWindows with
    | true => exact Or.inl rfl
    | false => exact Or.inr rfl

theorem read_short (h : abi.resolve p = .sso) :
    abi.read (Buffer.space p s) a order = ShortString.read (Buffer.space p s) a order := by
  simp only [read, Buffer.toPort_space, Buffer.port, h]

theorem read_counted (h : abi.resolve p = .refCounted) :
    abi.read (Buffer.space p s) a order = CountedString.read (Buffer.space p s) a order := by
  simp only [read, Buffer.toPort_space, Buffer.port, h]

theorem write_short (h : abi.resolve p = .sso) :
    abi.write (Buffer.space p s) a text order =
      ShortString.write (Buffer.space p s) a text order := by
  simp only [write, Buffer.toPort_space, Buffer.port, h]

theorem write_counted (h : abi.resolve p = .refCounted) :
    abi.write (Buffer.space p s) a text order =
      CountedString.write (Buffer.space p s) a text order := by
  simp only [write, Buffer.toPort_space, Buffer.port, h]

end StringAbi

/-! ### Blocks -/

namespace Allocation

/-- The addresses of the block. -/
def Covers (block : Allocation) (x : Nat) : Prop :=
  Buffer.Within block.address.toNat block.size x

/-- The blocks do not overlap. -/
def Apart (block other : Allocation) : Prop :=
  block.address.toNat + block.size ≤ other.address.toNat ∨
    other.address.toNat + other.size ≤ block.address.toNat

instance : Std.Symm Apart := ⟨fun _ _ h => Or.symm h⟩

end Allocation

/-! ### Objects -/

/-- A string object at an address, in a representation and a byte order. -/
structure StringSlot where
  address : Address
  abi : StringAbi
  order : ByteOrder
  deriving DecidableEq

namespace StringSlot

variable {p : Platform} {s : Schema} {b b' : Buffer} {slot : StringSlot}

/-- The number of bytes of the object itself. -/
def size (slot : StringSlot) (p : Platform) : Nat :=
  if slot.abi.resolve p = .sso then 16 + 2 * p.pointerSize else p.pointerSize

theorem size_short (h : slot.abi.resolve p = .sso) : slot.size p = 16 + 2 * p.pointerSize :=
  if_pos h

theorem size_counted (h : slot.abi.resolve p = .refCounted) : slot.size p = p.pointerSize :=
  if_neg (by rw [h]; decide)

/-- This is the size of a field for the object. -/
theorem size_field (slot : StringSlot) (s : Schema) (p : Platform) :
    (Field.string slot.abi).size s p = .ok (slot.size p) := by
  change (s.layout p (slot.abi.objectType p)).map (·.size) = _
  rcases slot.abi.resolve_cases p with h | h
  · have htype : slot.abi.objectType p = .builtin .shortString := by
      rw [StringAbi.objectType, h]
    rw [htype, Schema.layout_shortString, size_short h]
    rfl
  · have htype : slot.abi.objectType p = .builtin .countedString := by
      rw [StringAbi.objectType, h]
    rw [htype, Schema.layout_countedString, size_counted h]
    rfl

/-- The addresses of the object itself. -/
def Covers (p : Platform) (slot : StringSlot) (x : Nat) : Prop :=
  Buffer.Within slot.address.toNat (slot.size p) x

/-- The objects do not overlap. -/
def Apart (p : Platform) (slot other : StringSlot) : Prop :=
  slot.address.toNat + slot.size p ≤ other.address.toNat ∨
    other.address.toNat + other.size p ≤ slot.address.toNat

instance : Std.Symm (Apart p) := ⟨fun _ _ h => Or.symm h⟩

/-- The addresses of the object and of its block. -/
def Owns (p : Platform) (slot : StringSlot) (block : Option Allocation) (x : Nat) : Prop :=
  slot.Covers p x ∨ ∃ k ∈ block, k.Covers x

/-- Reads the object as a field. -/
def read (slot : StringSlot) (p : Platform) (s : Schema) : Access Buffer Value :=
  (Field.string slot.abi).read (Buffer.space p s) slot.address slot.order

/-- Writes a text to the object as a field. -/
def write (slot : StringSlot) (p : Platform) (s : Schema) (text : String) : Access Buffer Unit :=
  (Field.string slot.abi).write (Buffer.space p s) slot.address (.text text) slot.order

theorem read_eq : slot.read p s =
    .text <$> slot.abi.read (Buffer.space p s) slot.address slot.order := rfl

theorem write_eq {text : String} :
    slot.write p s text = slot.abi.write (Buffer.space p s) slot.address text slot.order := rfl

/-- What a buffer holds at an object with a text, or at one of zeros if there is none.  The
block is the one that the object owns. -/
inductive State (b : Buffer) (p : Platform) (slot : StringSlot) :
    Option String → Option Allocation → Prop
  /-- No characters within the object. -/
  | shortZero (habi : slot.abi.resolve p = .sso)
      (hcounts : ShortString.HoldsCounts b p slot.order slot.address 0 0) :
      State b p slot none none
  /-- The characters are within the object. -/
  | shortInline (text : String) (capacity : Nat) (habi : slot.abi.resolve p = .sso)
      (hcapacity : capacity = 0 ∨ capacity = 15) (hfits : Utf8.size text ≤ capacity)
      (hcounts : ShortString.HoldsCounts b p slot.order slot.address (Utf8.size text) capacity)
      (htext : b.Holds slot.address.toNat (withTerminator text)) :
      State b p slot (some text) none
  /-- The characters are at the begin of the block. -/
  | shortBlock (text : String) (capacity : Nat) (block : Allocation)
      (habi : slot.abi.resolve p = .sso) (hlarge : 16 ≤ capacity)
      (hfits : Utf8.size text ≤ capacity) (hsize : block.size = capacity + 1)
      (hne : block.address ≠ 0)
      (hcounts : ShortString.HoldsCounts b p slot.order slot.address (Utf8.size text) capacity)
      (hheap : b.HoldsWord p slot.order slot.address.toNat block.address)
      (htext : b.Holds block.address.toNat (withTerminator text)) :
      State b p slot (some text) (some block)
  /-- The pointer is null. -/
  | countedZero (habi : slot.abi.resolve p = .refCounted)
      (hnull : b.HoldsWord p slot.order slot.address.toNat 0) :
      State b p slot none none
  /-- The characters are in the block behind three words. -/
  | countedBlock (text : String) (capacity : Nat) (block : Allocation)
      (habi : slot.abi.resolve p = .refCounted) (hfits : Utf8.size text ≤ capacity)
      (hsize : block.size = 3 * p.pointerSize + capacity + 1)
      (hheader :
        CountedString.HoldsHeader b p slot.order block.address (Utf8.size text) capacity)
      (hpointer : b.HoldsWord p slot.order slot.address.toNat
        (CountedString.origin p block.address))
      (htext : b.Holds (block.address.toNat + 3 * p.pointerSize) (withTerminator text)) :
      State b p slot (some text) (some block)

namespace State

/-- An object of zeros has no text and no block. -/
theorem of_zeros (h : b.Holds slot.address.toNat (List.replicate (slot.size p) 0))
    (hlimit : b.limit ≤ wordLimit) : State b p slot none none := by
  have hend := h.mapped.le_limit
  have hpointer := p.pointerSize_pos
  rw [List.length_replicate] at hend
  rcases slot.abi.resolve_cases p with habi | habi
  · rw [size_short habi] at h hend
    have hlength : b.HoldsWord p slot.order (slot.address.toNat + 16) 0 :=
      h.zeroWord (by omega) slot.order
    have hcapacity : b.HoldsWord p slot.order (slot.address.toNat + (16 + p.pointerSize)) 0 :=
      h.zeroWord (by omega) slot.order
    rw [← Nat.add_assoc] at hcapacity
    exact shortZero habi ⟨by omega, hlength.count, hcapacity.count⟩
  · rw [size_counted habi] at h
    have hnull : b.HoldsWord p slot.order (slot.address.toNat + 0) 0 :=
      h.zeroWord (by omega) slot.order
    exact countedZero habi hnull

variable {text : Option String} {block : Option Allocation}

/-- The object is read as its text, and as no text while it is zero. -/
theorem read_yields (h : State b p slot text block)
    (hmapped : b.Mapped slot.address.toNat (slot.size p)) :
    (slot.read p s).Yields b (.text (text.getD "")) b := by
  rw [read_eq, Access.yields_map]
  refine ⟨text.getD "", ?_, rfl⟩
  cases h with
  | shortZero habi hcounts =>
    rw [StringAbi.read_short habi]
    have hnone : b.Holds slot.address.toNat [] :=
      ⟨hmapped.part le_rfl (by simp), fun i hi => absurd hi (Nat.not_lt_zero i)⟩
    exact ShortString.read_inline hcounts (by decide) rfl hnone (by decide)
  | shortInline text capacity habi hcapacity hfits hcounts htext =>
    rw [StringAbi.read_short habi]
    have hsixteen : Builtin.inlineCapacity = 16 := rfl
    refine ShortString.read_inline hcounts (by omega) ?_ (take_withTerminator text ▸ htext.take _)
      (Utf8.decode?_encode text)
    rw [Utf8.length_encode]
    omega
  | shortBlock text capacity block habi hlarge hfits hsize hne hcounts hheap htext =>
    rw [StringAbi.read_short habi]
    exact ShortString.read_block hcounts hlarge rfl hheap hne htext
  | countedZero habi hnull =>
    rw [StringAbi.read_counted habi]
    exact CountedString.read_null hnull
  | countedBlock text capacity block habi hfits hsize hheader hpointer htext =>
    rw [StringAbi.read_counted habi]
    exact CountedString.read_block hheader hpointer htext

/-- Where the bytes of the object and of its block stay, so does its state. -/
theorem keeps {changed : Nat → Prop} (h : State b p slot text block) (hkeeps : b.Keeps b' changed)
    (hout : ∀ x, slot.Owns p block x → ¬ changed x) : State b' p slot text block := by
  have hobject : ∀ x, slot.Covers p x → ¬ changed x := fun x hx => hout x (Or.inl hx)
  unfold Covers at hobject
  cases h with
  | shortZero habi hcounts =>
    rw [size_short habi] at hobject
    exact shortZero habi (hcounts.keeps hkeeps hobject)
  | shortInline text capacity habi hcapacity hfits hcounts htext =>
    rw [size_short habi] at hobject
    refine shortInline text capacity habi hcapacity hfits (hcounts.keeps hkeeps hobject) ?_
    refine hkeeps.holds htext fun x hx => hobject x ?_
    rw [length_withTerminator] at hx
    simp only [Buffer.Within] at *
    omega
  | shortBlock text capacity block habi hlarge hfits hsize hne hcounts hheap htext =>
    have hblock : ∀ x, block.Covers x → ¬ changed x := fun x hx => hout x (Or.inr ⟨block, rfl, hx⟩)
    have hpointer : p.pointerSize ≤ 8 := p.pointerSize_le
    rw [size_short habi] at hobject
    refine shortBlock text capacity block habi hlarge hfits hsize hne
      (hcounts.keeps hkeeps hobject) ?_ ?_
    · refine hkeeps.holdsWord hheap fun x hx => hobject x ?_
      simp only [Buffer.Within] at *
      omega
    · refine hkeeps.holds htext fun x hx => hblock x ?_
      rw [length_withTerminator] at hx
      simp only [Allocation.Covers, Buffer.Within] at *
      omega
  | countedZero habi hnull =>
    rw [size_counted habi] at hobject
    exact countedZero habi (hkeeps.holdsWord hnull hobject)
  | countedBlock text capacity block habi hfits hsize hheader hpointer htext =>
    have hblock : ∀ x, block.Covers x → ¬ changed x := fun x hx => hout x (Or.inr ⟨block, rfl, hx⟩)
    rw [size_counted habi] at hobject
    refine countedBlock text capacity block habi hfits hsize ?_ (hkeeps.holdsWord hpointer hobject)
      ?_
    · refine hheader.keeps hkeeps fun x hx => hblock x ?_
      simp only [Allocation.Covers, Buffer.Within] at *
      omega
    · refine hkeeps.holds htext fun x hx => hblock x ?_
      rw [length_withTerminator] at hx
      simp only [Allocation.Covers, Buffer.Within] at *
      omega

end State

/-! ### Writing -/

/-- The buffer `b'` after a text was written to an object of `b`, which owned `block` before and
owns `block'` now. -/
structure Rewritten (b b' : Buffer) (p : Platform) (slot : StringSlot) (text : String)
    (block block' : Option Allocation) : Prop where
  state : State b' p slot (some text) block'
  keeps : b.Keeps b' (slot.Owns p block)
  /-- A block is kept, or it is the last one of the buffer. -/
  block : block' = block ∧ b'.allocations = b.allocations ∨
    ∃ k, block' = some k ∧ b'.allocations = b.allocations ++ [k] ∧
      b.limit ≤ k.address.toNat ∧ k.address.toNat + k.size ≤ b'.limit

section Blocks

variable {text : String} {block block' : Option Allocation}
  (h : Rewritten b b' p slot text block block')

include h

/-- No block is given back. -/
theorem Rewritten.mem_allocations {k : Allocation} (hk : k ∈ b.allocations) :
    k ∈ b'.allocations := by
  rcases h.block with ⟨-, halloc⟩ | ⟨_, -, halloc, -⟩
  · rwa [halloc]
  · rw [halloc]
    exact List.mem_append_left _ hk

/-- A block that the object did not own before lies behind the old region. -/
theorem Rewritten.mem_block {k : Allocation} (hk : k ∈ block') :
    k ∈ block ∨ k ∈ b'.allocations ∧ b.limit ≤ k.address.toNat ∧
      k.address.toNat + k.size ≤ b'.limit := by
  rcases h.block with ⟨rfl, -⟩ | ⟨l, rfl, halloc, hfirst, hend⟩
  · exact Or.inl hk
  · obtain rfl : l = k := Option.mem_some.mp hk
    refine Or.inr ⟨?_, hfirst, hend⟩
    rw [halloc]
    exact List.mem_append_right _ List.mem_cons_self

end Blocks

section Write

variable {text : String} {old : Option String} {block : Option Allocation} {u : Unit}

/-- What the capacity of an object with an inline buffer says of the block that it owns. -/
inductive ShortRoom (b : Buffer) (p : Platform) (slot : StringSlot) (capacity : Nat) :
    Option Allocation → Prop
  | inline (hcapacity : capacity = 0 ∨ capacity = 15) : ShortRoom b p slot capacity none
  | block (k : Allocation) (hlarge : 16 ≤ capacity) (hsize : k.size = capacity + 1)
      (hne : k.address ≠ 0) (hheap : b.HoldsWord p slot.order slot.address.toNat k.address) :
      ShortRoom b p slot capacity (some k)

theorem State.shortRoom (h : State b p slot old block) (habi : slot.abi.resolve p = .sso) :
    ∃ length capacity, ShortString.HoldsCounts b p slot.order slot.address length capacity ∧
      ShortRoom b p slot capacity block := by
  cases h with
  | shortZero _ hcounts => exact ⟨_, _, hcounts, .inline (Or.inl rfl)⟩
  | shortInline _ capacity _ hcapacity _ hcounts => exact ⟨_, _, hcounts, .inline hcapacity⟩
  | shortBlock _ capacity k _ hlarge _ hsize hne hcounts hheap =>
    exact ⟨_, _, hcounts, .block k hlarge hsize hne hheap⟩
  | countedZero habi' => rw [habi] at habi'; cases habi'
  | countedBlock _ _ _ habi' => rw [habi] at habi'; cases habi'

theorem ShortRoom.rewritten {capacity : Nat} (h : ShortRoom b p slot capacity block)
    (habi : slot.abi.resolve p = .sso)
    (hwritten : ShortString.Written b b' p slot.order slot.address text capacity) :
    ∃ block', Rewritten b b' p slot text block block' := by
  have hsixteen : Builtin.inlineCapacity = 16 := rfl
  have hpointer : p.pointerSize ≤ 8 := p.pointerSize_le
  have hobject : ∀ x, Buffer.Within slot.address.toNat (16 + 2 * p.pointerSize) x →
      slot.Owns p block x := by
    intro x hx
    rw [← size_short habi] at hx
    exact Or.inl hx
  cases hwritten with
  | inline capacity' hcapacity' hsmall hfits hcounts htext hkeeps halloc =>
    cases h with
    | inline hcapacity =>
      exact ⟨none, .shortInline text capacity' habi (by omega) hfits hcounts htext,
        hkeeps.mono hobject, Or.inl ⟨rfl, halloc⟩⟩
    | block k hlarge => omega
  | block heap hlarge hfits hbefore hne hcounts hheap htext hkeeps halloc =>
    cases h with
    | inline hcapacity => omega
    | block k hlarge hsize hne' hheap' =>
      obtain rfl := hheap'.unique hbefore
      refine ⟨some k, .shortBlock text capacity k habi hlarge hfits hsize hne hcounts hheap htext,
        hkeeps.mono fun x hx => ?_, Or.inl ⟨rfl, halloc⟩⟩
      rcases hx with hx | hx
      · exact hobject x hx
      · refine Or.inr ⟨k, rfl, ?_⟩
        simp only [Allocation.Covers, Buffer.Within] at *
        omega
  | moved hwhy hcounts hheap hne hlimit hlimit' htext hkeeps halloc =>
    -- an object that asks for a block has one, so the text is what did not fit
    have hlong : 16 ≤ Utf8.size text := by
      rcases hwhy with ⟨hlarge, hnull⟩ | ⟨-, hlong⟩
      · cases h with
        | inline hcapacity => omega
        | block k _ _ hne' hheap' => exact absurd (hheap'.unique hnull) hne'
      · exact hlong
    have hpower := le_powerOfTwo (Utf8.size text + 1)
    have hsize : powerOfTwo (Utf8.size text + 1) - 1 + 1 = powerOfTwo (Utf8.size text + 1) :=
      Nat.sub_add_cancel (by omega)
    refine ⟨some ⟨b.nextBlock, powerOfTwo (Utf8.size text + 1)⟩,
      .shortBlock text (powerOfTwo (Utf8.size text + 1) - 1) _ habi (by omega) (by omega)
        hsize.symm hne hcounts hheap htext,
      hkeeps.mono fun x hx => hobject x ?_, Or.inr ⟨_, rfl, halloc, hlimit, hlimit'.ge⟩⟩
    simp only [Buffer.Within] at *
    omega

theorem rewritten_of_counted {room : Option (Address × Nat)}
    (habi : slot.abi.resolve p = .refCounted)
    (hroom : ∀ start capacity, room = some (start, capacity) → ∃ k, block = some k ∧
      k.address = start ∧ k.size = 3 * p.pointerSize + capacity + 1)
    (hwritten : CountedString.Written b b' p slot.order slot.address text room) :
    ∃ block', Rewritten b b' p slot text block block' := by
  cases hwritten with
  | kept start capacity hold hfits hheader hpointer htext hkeeps halloc =>
    obtain ⟨k, rfl, rfl, hsize⟩ := hroom start capacity hold
    refine ⟨some k, .countedBlock text capacity k habi hfits hsize hheader hpointer htext,
      hkeeps.mono fun x hx => Or.inr ⟨k, rfl, ?_⟩, Or.inl ⟨rfl, halloc⟩⟩
    rwa [Allocation.Covers, hsize]
  | moved hlimit hlimit' hheader hpointer htext hkeeps halloc =>
    have hsize := CountedString.le_blockSize p text
    refine ⟨some ⟨b.nextBlock, CountedString.blockSize p text⟩,
      .countedBlock text _ _ habi (by omega) (by dsimp only; omega) hheader hpointer htext,
      hkeeps.mono fun x hx => Or.inl ?_, Or.inr ⟨_, rfl, halloc, hlimit, hlimit'.ge⟩⟩
    rwa [Covers, size_counted habi]

/-- A write to an object before its block. -/
theorem State.written (h : State b p slot old block)
    (hmapped : b.Mapped slot.address.toNat (slot.size p)) (hlimit : b'.limit ≤ wordLimit)
    (hbehind : ∀ k ∈ block, slot.address.toNat + slot.size p ≤ k.address.toNat)
    (hwrite : (slot.write p s text).Yields b u b') :
    ∃ block', Rewritten b b' p slot text block block' := by
  rw [write_eq] at hwrite
  rcases slot.abi.resolve_cases p with habi | habi
  · rw [StringAbi.write_short habi] at hwrite
    rw [size_short habi] at hmapped hbehind
    obtain ⟨length, capacity, hcounts, hroom⟩ := h.shortRoom habi
    refine hroom.rewritten habi (ShortString.written_of_write hmapped hcounts.inside
      (Or.inr hlimit) hcounts.capacity (fun heap hlarge hfits hheap hne => Or.inr ?_) hwrite)
    cases hroom with
    | inline hcapacity =>
      have hsixteen : Builtin.inlineCapacity = 16 := rfl
      omega
    | block k _ _ _ hheap' =>
      rw [← hheap'.unique hheap]
      exact hbehind k rfl
  · rw [StringAbi.write_counted habi] at hwrite
    rw [size_counted habi] at hmapped hbehind
    cases h with
    | shortZero habi' => rw [habi] at habi'; cases habi'
    | shortInline _ _ habi' => rw [habi] at habi'; cases habi'
    | shortBlock _ _ _ habi' => rw [habi] at habi'; cases habi'
    | countedZero _ hnull =>
      exact rewritten_of_counted habi (fun _ _ hnone => absurd hnone (by simp))
        (CountedString.written_of_null hmapped hlimit hnull hwrite)
    | countedBlock other capacity k _ hfits hsize hheader hpointer htext =>
      refine rewritten_of_counted habi ?_ (CountedString.written_of_block hmapped hlimit hheader
        hpointer (Or.inr (hbehind k rfl)) hwrite)
      intro start room hroom
      cases hroom
      exact ⟨k, rfl, rfl, hsize⟩

end Write

/-! ### Growth -/

theorem grows_write (slot : StringSlot) (p : Platform) (s : Schema) (text : String) :
    Buffer.Grows (slot.write p s text) := by
  rw [write_eq]
  rcases slot.abi.resolve_cases p with habi | habi
  · rw [StringAbi.write_short habi]
    exact ShortString.grows_write
  · rw [StringAbi.write_counted habi]
    exact CountedString.grows_write

end StringSlot

end TypedMemory
