import TypedMemory.Proofs.Buffer.Faults
import TypedMemory.Proofs.StringObject.Counted.Failure
import TypedMemory.Proofs.StringObject.Short.Failure
import TypedMemory.Proofs.StringObject.Slots

/-!
# Reading any string object

Nothing is known here of the bytes that a string object is read from: its pointer, its
length and its capacity may be any words.  What is read is said in terms of the texts
that lie in the buffer (`Buffer.HasText`).

* `ShortString.Shows`, `CountedString.Shows`: the text that an object has;
* `ShortString.Broken`, `CountedString.Broken`: the objects that can not be read;
* `StringSlot.read_outcome`: every object is of one of these two kinds, and malformed
  characters are no failure.
-/

namespace TypedMemory

open Access StringObject

/-! ### Texts in a buffer -/

namespace Buffer

variable {b : Buffer} {address size : Nat} {text other : String} {bytes : Bytes}

/-- The `size` bytes from an address on are those of a text. -/
structure HasText (b : Buffer) (address size : Nat) (text : String) : Prop where
  size_eq : Utf8.size text = size
  holds : b.Holds address (Utf8.encode text)

theorem hasText_iff (hlength : bytes.length = size) (hbytes : b.Holds address bytes) :
    b.HasText address size text ↔ Utf8.decode? bytes = some text := by
  rw [Utf8.decode?_eq_some_iff]
  constructor
  · rintro ⟨hsize, htext⟩
    exact hbytes.unique htext (hlength.trans hsize.symm)
  · rintro rfl
    exact ⟨hlength, hbytes⟩

theorem HasText.mapped (h : b.HasText address size text) : b.Mapped address size := by
  rw [← h.size_eq]
  exact h.holds.mapped

theorem HasText.unique (h : b.HasText address size text) (h' : b.HasText address size other) :
    text = other := by
  have hdecode := (hasText_iff h.size_eq h.holds).mp h'
  rw [Utf8.decode?_encode] at hdecode
  exact Option.some.inj hdecode

/-- The text at a pointer; there is none at a null pointer, where bytes are missing or where they
are malformed. -/
inductive TextBehind (b : Buffer) (heap : Address) (length : Nat) : String → Prop
  | text {text : String} (hne : heap ≠ 0) (h : b.HasText heap.toNat length text) :
      TextBehind b heap length text
  | empty (h : heap = 0 ∨ ∀ text, ¬ b.HasText heap.toNat length text) :
      TextBehind b heap length ""

theorem TextBehind.unique {heap : Address} {length : Nat} (h : b.TextBehind heap length text)
    (h' : b.TextBehind heap length other) : text = other := by
  cases h with
  | text hne htext =>
    cases h' with
    | text _ hother => exact htext.unique hother
    | empty hnone => exact absurd htext (hnone.resolve_left hne _)
  | empty hnone =>
    cases h' with
    | text hne hother => exact absurd hother (hnone.resolve_left hne _)
    | empty => rfl

theorem textBehind_contentOrEmpty {heap : Address} (hne : heap ≠ 0)
    (hbytes : b.Holds heap.toNat bytes) :
    b.TextBehind heap bytes.length (contentOrEmpty heap bytes) := by
  unfold contentOrEmpty decodeContent
  cases hdecode : Utf8.decode? bytes with
  | some text => exact .text hne ((hasText_iff rfl hbytes).mpr hdecode)
  | none =>
    refine .empty (Or.inr fun text htext => ?_)
    rw [hasText_iff rfl hbytes, hdecode] at htext
    cases htext

end Buffer

variable {p : Platform} {s : Schema} {order : ByteOrder} {a : Address} {b b' : Buffer}
  {text other : String}

/-- Reading a count fails for lack of bytes only. -/
theorem CompositeView.failsByMemory_readCount {view : CompositeView} {name : String}
    {member : Address} (hmember : view.addressOf name = .ok member) (b : Buffer) :
    FailsByMemory (CountedString.readCount (Buffer.space p s) view name) b := by
  unfold CountedString.readCount
  rw [hmember, liftM_ok_bind]
  exact (Buffer.failsByMemory_readWord (p := p) b member view.order).map

/-! ### Objects with an inline buffer -/

namespace ShortString

variable {length capacity : Nat} {heap : Address}

/-- The text of an object with these counts and this pointer.  A capacity below sixteen says that
the characters are within the object.  Where these are malformed the pointer is followed, as it
always is for a greater capacity. -/
inductive Shows (b : Buffer) (a : Address) (length capacity : Nat) (heap : Address) : String → Prop
  | inline {text : String} (hsmall : capacity < 16)
      (h : b.HasText a.toNat (min length 16) text) : Shows b a length capacity heap text
  | fallback {text : String} (hsmall : capacity < 16)
      (hnone : ∀ text, ¬ b.HasText a.toNat (min length 16) text)
      (h : b.TextBehind heap length text) : Shows b a length capacity heap text
  | pointed {text : String} (hlarge : 16 ≤ capacity)
      (hmapped : heap = 0 ∨ b.Mapped heap.toNat length)
      (h : b.TextBehind heap length text) : Shows b a length capacity heap text

/-- The characters would be outside, and are not there. -/
structure Broken (b : Buffer) (length capacity : Nat) (heap : Address) : Prop where
  large : 16 ≤ capacity
  ne_zero : heap ≠ 0
  unmapped : ¬ b.Mapped heap.toNat length

theorem Shows.unique (h : Shows b a length capacity heap text)
    (h' : Shows b a length capacity heap other) : text = other := by
  cases h with
  | inline hsmall htext =>
    cases h' with
    | inline _ hother => exact htext.unique hother
    | fallback _ hnone => exact absurd htext (hnone text)
    | pointed hlarge => omega
  | fallback hsmall hnone hbehind =>
    cases h' with
    | inline _ hother => exact absurd hother (hnone other)
    | fallback _ _ hother => exact hbehind.unique hother
    | pointed hlarge => omega
  | pointed hlarge _ hbehind =>
    cases h' with
    | inline hsmall | fallback hsmall => omega
    | pointed _ _ hother => exact hbehind.unique hother

theorem Shows.not_broken (h : Shows b a length capacity heap text) :
    ¬ Broken b length capacity heap := by
  rintro ⟨hlarge, hne, hunmapped⟩
  cases h with
  | inline hsmall | fallback hsmall => omega
  | pointed _ hmapped => exact hunmapped (hmapped.resolve_left hne)

/-- Looking for characters outside never fails, as the handler gives none. -/
theorem fallback_yields (hheap : b.HoldsWord p order a.toNat heap) (length : Nat) :
    ∃ found, (tryCatch ((located p a order).readHeap? (Buffer.space p s) length)
      fun _ => pure none).Yields b found b ∧ b.TextBehind heap length (found.getD "") := by
  have hread := heapAddress_yields_iff (s := s).mpr ⟨rfl, hheap⟩
  by_cases hnull : heap = 0
  · refine ⟨none, Yields.tryCatch ?_, .empty (Or.inl hnull)⟩
    unfold readHeap?
    rw [hread.bind_iff, if_pos hnull]
    exact yields_pure.mpr ⟨rfl, rfl⟩
  by_cases hmapped : b.Mapped heap.toNat length
  · obtain ⟨bytes, rfl, hbytes⟩ := hmapped.exists_holds
    refine ⟨(decodeContent heap bytes).toOption, Yields.tryCatch ?_,
      Buffer.textBehind_contentOrEmpty hnull hbytes⟩
    unfold readHeap?
    rw [hread.bind_iff, if_neg hnull, Buffer.readBytes_space,
      (Buffer.readBytes_yields_iff.mpr ⟨rfl, rfl, hbytes⟩).bind_iff]
    exact yields_pure.mpr ⟨rfl, rfl⟩
  · have hfails := (readHeap?_fails_iff (s := s) hheap).mpr ⟨hnull, hmapped, rfl⟩
    exact ⟨none, hfails.tryCatch fun _ => yields_pure.mpr ⟨rfl, rfl⟩,
      .empty (Or.inr fun text htext => hmapped htext.mapped)⟩

section Read

variable (hcounts : HoldsCounts b p order a length capacity)
  (hobject : b.Mapped a.toNat (16 + 2 * p.pointerSize))
  (hheap : b.HoldsWord p order a.toNat heap)

include hcounts hobject hheap

/-- An object that is not broken is read as its text. -/
theorem exists_shows (h : ¬ Broken b length capacity heap) :
    ∃ text, (read (Buffer.space p s) a order).Yields b text b ∧
      Shows b a length capacity heap text := by
  have hsixteen : Builtin.inlineCapacity = 16 := rfl
  by_cases hsmall : capacity < Builtin.inlineCapacity
  · have hinline : b.Mapped a.toNat (min length Builtin.inlineCapacity) :=
      hobject.part le_rfl (by omega)
    obtain ⟨bytes, hlength, hbytes⟩ := hinline.exists_holds
    have htext : ∀ text, b.HasText a.toNat (min length 16) text ↔
        Utf8.decode? bytes = some text := fun text => Buffer.hasText_iff hlength hbytes
    cases hdecode : Utf8.decode? bytes with
    | some text =>
      exact ⟨text, read_inline hcounts hsmall hlength hbytes hdecode,
        .inline hsmall ((htext text).mpr hdecode)⟩
    | none =>
      obtain ⟨found, hfound, hbehind⟩ := fallback_yields (s := s) hheap length
      refine ⟨found.getD "", ?_, .fallback hsmall (fun text h => ?_) hbehind⟩
      · rw [read_yields_iff hcounts, if_pos hsmall,
          (Buffer.readBytes_yields_iff.mpr ⟨rfl, hlength, hbytes⟩).bind_iff]
        simp only [decodeContent, hdecode]
        rw [hfound.bind_iff]
        exact yields_pure.mpr ⟨rfl, rfl⟩
      · rw [htext, hdecode] at h
        cases h
  · have hread := heapAddress_yields_iff (s := s).mpr ⟨rfl, hheap⟩
    have hlarge : 16 ≤ capacity := by omega
    by_cases hnull : heap = 0
    · refine ⟨"", ?_, .pointed hlarge (Or.inl hnull) (.empty (Or.inl hnull))⟩
      rw [read_yields_iff hcounts, if_neg hsmall, hread.bind_iff, if_pos hnull]
      exact yields_pure.mpr ⟨rfl, rfl⟩
    · have hmapped : b.Mapped heap.toNat length := by
        by_contra hunmapped
        exact h ⟨hlarge, hnull, hunmapped⟩
      obtain ⟨bytes, rfl, hbytes⟩ := hmapped.exists_holds
      refine ⟨contentOrEmpty heap bytes, ?_, .pointed hlarge (Or.inr hmapped)
        (Buffer.textBehind_contentOrEmpty hnull hbytes)⟩
      rw [read_yields_iff hcounts, if_neg hsmall, hread.bind_iff, if_neg hnull,
        (Buffer.readBytes_yields_iff.mpr ⟨rfl, rfl, hbytes⟩).bind_iff]
      exact yields_pure.mpr ⟨rfl, rfl⟩

omit hobject in
/-- Nothing is read from a broken object. -/
theorem not_yields_of_broken (h : Broken b length capacity heap) :
    ¬ (read (Buffer.space p s) a order).Yields b text b' := by
  intro hread
  have hlarge : ¬ capacity < Builtin.inlineCapacity := Nat.not_lt.mpr h.large
  rw [read_yields_iff hcounts, if_neg hlarge,
    (heapAddress_yields_iff.mpr ⟨rfl, hheap⟩).bind_iff, if_neg h.ne_zero] at hread
  obtain ⟨bytes, t, hbytes, -⟩ := yields_bind.mp hread
  obtain ⟨-, rfl, hholds⟩ := Buffer.readBytes_yields_iff.mp hbytes
  exact h.unmapped hholds.mapped

end Read

/-- Only missing bytes make the read of an object fail. -/
theorem failsByMemory_read (b : Buffer) :
    FailsByMemory (read (Buffer.space p s) a order) b := by
  have hlengths : FailsByMemory ((located p a order).readCount (Buffer.space p s) "length") b :=
    CompositeView.failsByMemory_readCount addressOf_length b
  have hcapacities :
      FailsByMemory ((located p a order).readCount (Buffer.space p s) "capacity") b :=
    CompositeView.failsByMemory_readCount addressOf_capacity b
  unfold read
  rw [locate_space, liftM_ok_bind]
  refine hlengths.bind fun length t hlength => ?_
  obtain ⟨rfl, -⟩ := (readCount_yields_iff addressOf_length).mp hlength
  refine ⟨rfl, hcapacities.bind fun capacity t' hcapacity => ?_⟩
  obtain ⟨rfl, -⟩ := (readCount_yields_iff addressOf_capacity).mp hcapacity
  refine ⟨rfl, ?_⟩
  split
  next =>
    refine (Buffer.failsByMemory_readBytes _ _ _).bind fun bytes t hbytes => ?_
    obtain ⟨rfl, -⟩ := Buffer.readBytes_yields_iff.mp hbytes
    refine ⟨rfl, ?_⟩
    split
    · exact (yields_pure.mpr ⟨rfl, rfl⟩).failsByMemory
    · have hreadHeap : ReadOnly ((located p a order).readHeap? (Buffer.space p s) length) :=
        readOnly_readHeap? length
      obtain ⟨found, hfound⟩ := hreadHeap.exists_yields_tryCatch t none
      exact (yields_map.mpr ⟨found, hfound, rfl⟩).failsByMemory
  next =>
    refine (Buffer.failsByMemory_readWord (p := p) _ a order).bind fun heap t hheap => ?_
    obtain ⟨rfl, -⟩ := Buffer.readWord_yields_iff.mp hheap
    refine ⟨rfl, ?_⟩
    split
    · exact (yields_pure.mpr ⟨rfl, rfl⟩).failsByMemory
    · exact (Buffer.failsByMemory_readBytes _ heap length).map

end ShortString

/-! ### Objects that point to their characters -/

namespace CountedString

/-- Where the length of the characters at `target` is. -/
def lengthSlot (p : Platform) (target : Address) : Address :=
  target.move (-((2 * p.pointerSize : Nat) : Int))

/-- The text of an object.  If its pointer is not null, the length of the characters lies in front
of these. -/
inductive Shows (b : Buffer) (p : Platform) (order : ByteOrder) (a : Address) : String → Prop
  | null (h : b.HoldsWord p order a.toNat 0) : Shows b p order a ""
  | pointed {target : Address} {length : Nat} {text : String}
      (hpointer : b.HoldsWord p order a.toNat target) (hne : target ≠ 0)
      (hlength : b.HoldsCount p order (lengthSlot p target).toNat length)
      (hmapped : b.Mapped target.toNat length) (h : b.TextBehind target length text) :
      Shows b p order a text

/-- The pointer is not there, or it is not null and the length or the characters are not there. -/
inductive Broken (b : Buffer) (p : Platform) (order : ByteOrder) (a : Address) : Prop
  | pointer (h : ¬ b.Mapped a.toNat p.pointerSize)
  | length {target : Address} (hpointer : b.HoldsWord p order a.toNat target) (hne : target ≠ 0)
      (h : ¬ b.Mapped (lengthSlot p target).toNat p.pointerSize)
  | characters {target : Address} {length : Nat} (hpointer : b.HoldsWord p order a.toNat target)
      (hne : target ≠ 0) (hlength : b.HoldsCount p order (lengthSlot p target).toNat length)
      (h : ¬ b.Mapped target.toNat length)

theorem Shows.unique (h : Shows b p order a text) (h' : Shows b p order a other) :
    text = other := by
  cases h with
  | null hnull =>
    cases h' with
    | null => rfl
    | pointed hpointer hne => exact absurd (hpointer.unique hnull) hne
  | pointed hpointer hne hlength _ hbehind =>
    cases h' with
    | null hnull => exact absurd (hpointer.unique hnull) hne
    | pointed hpointer' _ hlength' _ hbehind' =>
      cases hpointer.unique hpointer'
      cases hlength.unique hlength'
      exact hbehind.unique hbehind'

theorem Shows.not_broken (h : Shows b p order a text) : ¬ Broken b p order a := by
  intro hbroken
  cases h with
  | null hnull =>
    cases hbroken with
    | pointer hunmapped => exact hunmapped hnull.mapped
    | length hpointer hne | characters hpointer hne => exact hne (hpointer.unique hnull)
  | pointed hpointer hne hlength hmapped =>
    cases hbroken with
    | pointer hunmapped => exact hunmapped hpointer.mapped
    | length hpointer' _ hunmapped =>
      cases hpointer.unique hpointer'
      exact hunmapped hlength.word.mapped
    | characters hpointer' _ hlength' hunmapped =>
      cases hpointer.unique hpointer'
      cases hlength.unique hlength'
      exact hunmapped hmapped

section Pointed

variable {target : Address} (hpointer : b.HoldsWord p order a.toNat target) (hne : target ≠ 0)

include hpointer hne

/-- Reading through a pointer that is not null. -/
theorem read_yields_iff :
    (read (Buffer.space p s) a order).Yields b text b' ↔ b' = b ∧ ∃ length bytes,
      b.HoldsCount p order (lengthSlot p target).toNat length ∧ bytes.length = length ∧
        b.Holds target.toNat bytes ∧ text = contentOrEmpty target bytes := by
  unfold read
  rw [(locate_yields_header hpointer hne).bind_iff]
  dsimp only
  simp only [yields_bind, CompositeView.readCount_yields_iff addressOf_length, addressOf_content,
    yields_liftM, Buffer.readBytes_space, Buffer.readBytes_yields_iff, yields_pure]
  constructor
  · rintro ⟨length, _, ⟨rfl, hlength⟩, _, _, ⟨⟨⟩, rfl⟩, bytes, _, ⟨rfl, hsize, hbytes⟩, rfl, rfl⟩
    exact ⟨rfl, length, bytes, hlength, hsize, hbytes, rfl⟩
  · rintro ⟨rfl, length, bytes, hlength, hsize, hbytes, rfl⟩
    exact ⟨length, _, ⟨rfl, hlength⟩, target, _, ⟨rfl, rfl⟩, bytes, _, ⟨rfl, hsize, hbytes⟩,
      rfl, rfl⟩

end Pointed

/-- An object that is not broken is read as its text. -/
theorem exists_shows (h : ¬ Broken b p order a) :
    ∃ text, (read (Buffer.space p s) a order).Yields b text b ∧ Shows b p order a text := by
  have hslot : b.Mapped a.toNat p.pointerSize := by
    by_contra hunmapped
    exact h (.pointer hunmapped)
  obtain ⟨target, hpointer⟩ := hslot.exists_holdsWord order
  by_cases hnull : target = 0
  · rw [hnull] at hpointer
    exact ⟨"", read_null hpointer, .null hpointer⟩
  have hword : b.Mapped (lengthSlot p target).toNat p.pointerSize := by
    by_contra hunmapped
    exact h (.length hpointer hnull hunmapped)
  obtain ⟨length, hlength⟩ := hword.exists_holdsWord order
  have hmapped : b.Mapped target.toNat length.toNat := by
    by_contra hunmapped
    exact h (.characters hpointer hnull hlength.count hunmapped)
  obtain ⟨bytes, hsize, hbytes⟩ := hmapped.exists_holds
  refine ⟨contentOrEmpty target bytes, (read_yields_iff hpointer hnull).mpr
    ⟨rfl, _, bytes, hlength.count, hsize, hbytes, rfl⟩, ?_⟩
  have hbehind := Buffer.textBehind_contentOrEmpty hnull hbytes
  rw [hsize] at hbehind
  exact .pointed hpointer hnull hlength.count hmapped hbehind

/-- Nothing is read from a broken object. -/
theorem not_yields_of_broken (h : Broken b p order a) :
    ¬ (read (Buffer.space p s) a order).Yields b text b' := by
  intro hread
  cases h with
  | pointer hunmapped =>
    obtain ⟨target, hpointer, -⟩ := exists_pointer_of_read hread
    exact hunmapped hpointer.mapped
  | length hpointer hne hunmapped =>
    obtain ⟨-, length, bytes, hlength, -⟩ := (read_yields_iff hpointer hne).mp hread
    exact hunmapped hlength.word.mapped
  | characters hpointer hne hlength hunmapped =>
    obtain ⟨-, length, bytes, hlength', rfl, hbytes, -⟩ := (read_yields_iff hpointer hne).mp hread
    cases hlength.unique hlength'
    exact hunmapped hbytes.mapped

/-- A pointer that can be read shows where the object is, so that only reading it can fail. -/
theorem failsByMemory_locate (b : Buffer) :
    FailsByMemory (locate (Buffer.space p s) a order) b := by
  by_cases hslot : b.Mapped a.toNat p.pointerSize
  · obtain ⟨target, hpointer⟩ := hslot.exists_holdsWord order
    have hread : ((Buffer.space p s).readWord a order).Yields b target b :=
      Buffer.readWord_yields_iff.mpr ⟨rfl, hpointer⟩
    exact (locate_yields hread).failsByMemory
  · unfold locate
    rw [layout_countedString_eq, liftM_ok_bind]
    dsimp only [Buffer.toPort_space, Buffer.port]
    rw [addressOf_pointer, liftM_ok_bind]
    have hnull : FailsByMemory ((slotAt a order).isNull (Buffer.space p s)) b :=
      FailsByMemory.map (Buffer.failsByMemory_readWord (p := p) b a order)
    refine hnull.bind fun null t h => ?_
    obtain ⟨target, u, htarget, -⟩ := yields_bind.mp h
    exact absurd (targetAddress_yields_iff.mp htarget).2.mapped hslot

/-- Only missing bytes make the read of an object fail. -/
theorem failsByMemory_read (b : Buffer) :
    FailsByMemory (read (Buffer.space p s) a order) b := by
  -- where the object was found its pointer is known, and so is which object was found
  unfold read
  refine (failsByMemory_locate b).bind fun string t hstring => ?_
  obtain ⟨target, hpointer⟩ := exists_pointer_of_locate hstring
  by_cases hnull : target = 0
  · rw [hnull] at hpointer
    obtain ⟨rfl, rfl⟩ := hstring.unique (locate_yields_null hpointer)
    exact ⟨rfl, (yields_pure.mpr ⟨rfl, rfl⟩).failsByMemory⟩
  obtain ⟨rfl, rfl⟩ := hstring.unique (locate_yields_header hpointer hnull)
  refine ⟨rfl, ?_⟩
  dsimp only
  refine (CompositeView.failsByMemory_readCount addressOf_length t).bind fun length u hlength => ?_
  obtain ⟨rfl, -⟩ := (CompositeView.readCount_yields_iff addressOf_length).mp hlength
  refine ⟨rfl, ?_⟩
  rw [addressOf_content, liftM_ok_bind]
  exact (Buffer.failsByMemory_readBytes u target length).map

end CountedString

/-! ### Objects of both kinds -/

/-- The words of an object with an inline buffer. -/
theorem ShortString.exists_words (hlimit : b.limit ≤ wordLimit)
    (hobject : b.Mapped a.toNat (16 + 2 * p.pointerSize)) (order : ByteOrder) :
    ∃ length capacity heap, ShortString.HoldsCounts b p order a length capacity ∧
      b.HoldsWord p order a.toNat heap := by
  have hpos := p.pointerSize_pos
  have hpointer : p.pointerSize ≤ 8 := p.pointerSize_le
  have hend := hobject.le_limit
  have hlength : b.Mapped (a.toNat + 16) p.pointerSize := hobject.part (by omega) (by omega)
  have hcapacity : b.Mapped (a.toNat + 16 + p.pointerSize) p.pointerSize :=
    hobject.part (by omega) (by omega)
  have hheap : b.Mapped a.toNat p.pointerSize := hobject.part (by omega) (by omega)
  obtain ⟨length, hlength⟩ := hlength.exists_holdsWord order
  obtain ⟨capacity, hcapacity⟩ := hcapacity.exists_holdsWord order
  obtain ⟨heap, hheap⟩ := hheap.exists_holdsWord order
  exact ⟨_, _, heap, ⟨by omega, hlength.count, hcapacity.count⟩, hheap⟩

namespace StringSlot

variable {slot : StringSlot}

/-- A slot is read as the text of its object. -/
theorem outcome_of_abi {Shows : String → Prop} {Broken : Prop}
    (h : ((∃ b', (slot.abi.read (Buffer.space p s) slot.address slot.order).Fails b b') ↔ Broken) ∧
      ∀ text b', (slot.abi.read (Buffer.space p s) slot.address slot.order).Yields b text b' ↔
        b' = b ∧ Shows text) :
    ((∃ b', (slot.read p s).Fails b b') ↔ Broken) ∧
      ∀ v b', (slot.read p s).Yields b v b' ↔ b' = b ∧ ∃ text, v = .text text ∧ Shows text := by
  rw [read_eq]
  refine ⟨Iff.trans ?_ h.1, fun v b' => ?_⟩
  · simp only [fails_map]
  · rw [yields_map]
    constructor
    · rintro ⟨text, htext, rfl⟩
      obtain ⟨rfl, hshown⟩ := (h.2 text b').mp htext
      exact ⟨rfl, text, rfl, hshown⟩
    · rintro ⟨rfl, text, rfl, hshown⟩
      exact ⟨text, (h.2 text b').mpr ⟨rfl, hshown⟩, rfl⟩

/-- Whatever bytes a string object is read from, only missing bytes make this fail, and the buffer
stays as it is.  An object with an inline buffer that lies in the region as a whole is broken, or is
read as the text that it shows; so is any object that points to its characters. -/
theorem read_outcome (p : Platform) (s : Schema) (slot : StringSlot)
    (hlimit : b.limit ≤ wordLimit) :
    (slot.read p s).FailsByMemory b ∧
    (slot.abi.resolve p = .sso → b.Mapped slot.address.toNat (16 + 2 * p.pointerSize) →
      ∃ length capacity heap,
        ShortString.HoldsCounts b p slot.order slot.address length capacity ∧
        b.HoldsWord p slot.order slot.address.toNat heap ∧
        ((∃ b', (slot.read p s).Fails b b') ↔ ShortString.Broken b length capacity heap) ∧
        ∀ v b', (slot.read p s).Yields b v b' ↔ b' = b ∧ ∃ text, v = .text text ∧
          ShortString.Shows b slot.address length capacity heap text) ∧
    (slot.abi.resolve p = .refCounted →
      ((∃ b', (slot.read p s).Fails b b') ↔
        CountedString.Broken b p slot.order slot.address) ∧
      ∀ v b', (slot.read p s).Yields b v b' ↔ b' = b ∧ ∃ text, v = .text text ∧
        CountedString.Shows b p slot.order slot.address text) := by
  refine ⟨?_, fun habi hobject => ?_, fun habi => ?_⟩
  · rw [read_eq]
    apply FailsByMemory.map
    rcases slot.abi.resolve_cases p with habi | habi
    · rw [StringAbi.read_short habi]
      exact ShortString.failsByMemory_read b
    · rw [StringAbi.read_counted habi]
      exact CountedString.failsByMemory_read b
  · obtain ⟨length, capacity, heap, hcounts, hheap⟩ :=
      ShortString.exists_words hlimit hobject slot.order
    refine ⟨length, capacity, heap, hcounts, hheap, outcome_of_abi ?_⟩
    rw [StringAbi.read_short habi]
    exact outcome_of_cases (ShortString.exists_shows hcounts hobject hheap)
      (fun h _ _ => ShortString.not_yields_of_broken hcounts hheap h)
      (fun _ _ => ShortString.Shows.unique) fun _ => ShortString.Shows.not_broken
  · refine outcome_of_abi ?_
    rw [StringAbi.read_counted habi]
    exact outcome_of_cases CountedString.exists_shows
      (fun h _ _ => CountedString.not_yields_of_broken h)
      (fun _ _ => CountedString.Shows.unique) fun _ => CountedString.Shows.not_broken

/-- Three objects with pointers that they should not have.  The first has one to the text `hello`
and a capacity that says that its characters are inline, the pointers of the others lead out of the
region. -/
def hostileBuffer : Buffer :=
  ⟨4096,
    [128, 16, 0, 0, 0, 0, 0, 0] ++ List.replicate 8 0 ++ 5 :: List.replicate 7 0 ++
      15 :: List.replicate 7 0 ++
    [0, 0, 173, 222, 0, 0, 0, 0] ++ List.replicate 8 0 ++ 20 :: List.replicate 7 0 ++
      31 :: List.replicate 7 0 ++
    List.replicate 8 255 ++ List.replicate 56 0 ++ [104, 101, 108, 108, 111], []⟩

theorem read_outcome_hostile :
    ShortString.Shows hostileBuffer 4096 5 15 4224 "hello" ∧
    (∃ b', (read ⟨4128, .sso, .little⟩ .host .empty).Fails hostileBuffer b') ∧
    ∃ b', (read ⟨4160, .refCounted, .little⟩ .host .empty).Fails hostileBuffer b' := by
  have hheld : ∀ a w,
      ((Buffer.port .host).readWord a .little).Yields hostileBuffer w hostileBuffer →
        hostileBuffer.HoldsWord .host .little a.toNat w :=
    fun a w h => (Buffer.readWord_yields_iff.mp h).2
  have hlimit : hostileBuffer.limit ≤ wordLimit := by decide +kernel
  refine ⟨?_, ?_, ?_⟩
  · let slot : StringSlot := ⟨4096, .sso, .little⟩
    have hread : (slot.read .host .empty).Yields hostileBuffer (.text "hello") hostileBuffer := by
      decide +kernel
    obtain ⟨length, capacity, heap, hcounts, hheap, -, hyields⟩ :=
      (read_outcome .host .empty slot hlimit).2.1 rfl ⟨by decide, by decide +kernel, by decide⟩
    obtain ⟨-, text, ⟨⟩, hshown⟩ := (hyields _ _).mp hread
    cases hcounts.length.unique (hheld 4112 5 (by decide +kernel)).count
    cases hcounts.capacity.unique (hheld 4120 15 (by decide +kernel)).count
    cases hheap.unique (hheld 4096 4224 (by decide +kernel))
    exact hshown
  · let slot : StringSlot := ⟨4128, .sso, .little⟩
    obtain ⟨length, capacity, heap, hcounts, hheap, hfails, -⟩ :=
      (read_outcome .host .empty slot hlimit).2.1 rfl ⟨by decide, by decide +kernel, by decide⟩
    cases hcounts.capacity.unique (hheld 4152 31 (by decide +kernel)).count
    cases hheap.unique (hheld 4128 3735879680 (by decide +kernel))
    refine hfails.mpr ⟨by decide, by decide, fun hmapped => ?_⟩
    have hend : (3735879680 : Address).toNat + length ≤ hostileBuffer.limit := hmapped.le_limit
    have hoff : hostileBuffer.limit < (3735879680 : Address).toNat := by decide +kernel
    omega
  · let slot : StringSlot := ⟨4160, .refCounted, .little⟩
    refine ((read_outcome .host .empty slot hlimit).2.2 rfl).1.mpr ?_
    refine .length (hheld 4160 18446744073709551615 (by decide +kernel)) (by decide +kernel)
      fun hmapped => ?_
    exact absurd hmapped.le_limit (by decide +kernel)

end StringSlot

end TypedMemory
