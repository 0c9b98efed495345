import TypedMemory.Proofs.StringObject.Short.Written

/-!
# Reading back what was written to an object with an inline buffer

The text comes back from every object but one kind: where the capacity asks for a
block and there is none, a text of less than sixteen bytes is put into a new block of
at most sixteen, and the capacity of that sends the reader to the inline buffer.  It
finds the bytes of the pointer there (`Misread`).
-/

namespace TypedMemory

open StringObject

namespace ShortString

variable {p : Platform} {s : Schema} {order : ByteOrder} {a : Address} {b b' : Buffer}
  {text : String}

/-- A write reads the capacity first, so that is within the address space. -/
theorem inside_of_write (hobject : b.Mapped a.toNat (16 + 2 * p.pointerSize)) {u : Unit}
    (hwrite : (write (Buffer.space p s) a text order).Yields b u b') :
    a.toNat + 16 + p.pointerSize < wordLimit := by
  unfold write at hwrite
  rw [(Access.yields_liftM.mpr ⟨locate_space, rfl⟩).bind_iff] at hwrite
  obtain ⟨capacity, t, hread, -⟩ := Access.yields_bind.mp hwrite
  obtain ⟨rfl, hcapacity⟩ := (readCount_yields_iff addressOf_capacity).mp hread
  have hbase := hcapacity.word.mapped.base_le
  have hend := hobject.inside
  have hpointer : p.pointerSize ≤ 8 := p.pointerSize_le
  have hlt : a.toNat < wordLimit := a.toNat_lt
  by_contra hover
  have hmove : (((a.move (16 + p.pointerSize : Nat)).toNat : Nat) : Int) =
      a.toNat + (16 + p.pointerSize : Nat) - wordLimit := by
    have hlimit : (wordLimit : Int) = 0x10000000000000000 := rfl
    rw [Address.move, toNat_ofInt, hlimit]
    omega
  omega

/-- The bytes within an object that got a new block: the pointer, and what was behind it. -/
def staleBytes (p : Platform) (order : ByteOrder) (block : Address) (inline : Bytes) : Bytes :=
  Buffer.wordBytes p order block ++ inline.drop p.pointerSize

/-- The text of the object is read from bytes that are not its characters. -/
def Misread (p : Platform) (order : ByteOrder) (block : Address) (inline : Bytes)
    (capacity : Nat) (heap : Address) (text : String) : Prop :=
  Builtin.inlineCapacity ≤ capacity ∧ heap = 0 ∧ Utf8.size text < Builtin.inlineCapacity ∧
    ∃ other, other ≠ text ∧
      Utf8.decode? ((staleBytes p order block inline).take (Utf8.size text)) = some other

theorem powerOfTwo_succ_le_inlineCapacity (h : Utf8.size text < Builtin.inlineCapacity) :
    powerOfTwo (Utf8.size text + 1) ≤ Builtin.inlineCapacity :=
  (powerOfTwo_le_iff _ 4).mpr h

/-- After a write the text is read back, unless it is misread. -/
theorem read_after_write_iff (hobject : b.Mapped a.toNat (16 + 2 * p.pointerSize))
    (hroom : b.memory.length + blockAlignment ≤ wordLimit) {inline : Bytes} {capacity : Nat}
    {heap : Address} (hinline : b.Holds a.toNat inline)
    (hlen : inline.length = Builtin.inlineCapacity)
    (hcapacity : b.HoldsCount p order (a.toNat + 16 + p.pointerSize) capacity)
    (hheap : b.HoldsWord p order a.toNat heap)
    (hblock : Builtin.inlineCapacity ≤ capacity → heap ≠ 0 → Utf8.size text ≤ capacity →
      heap.toNat + (Utf8.size text + 1) ≤ a.toNat ∨
        a.toNat + (16 + 2 * p.pointerSize) ≤ heap.toNat)
    (hwrite : (write (Buffer.space p s) a text order).Yields b () b') :
    (read (Buffer.space p s) a order).Yields b' text b' ↔
      ¬ Misread p order b.nextBlock inline capacity heap text := by
  have hsixteen : Builtin.inlineCapacity = 16 := rfl
  have hpointer : p.pointerSize ≤ 8 := p.pointerSize_le
  have hround : roundUp b.memory.length blockAlignment < wordLimit :=
    (roundUp_lt_add _ (by decide)).trans_le hroom
  have hwritten := written_of_write hobject (inside_of_write hobject hwrite)
    (Or.inl hround) hcapacity
    (fun other hlarge hfits hother hne => by
      rw [hheap.unique hother] at hblock
      exact hblock hlarge hne hfits) hwrite
  cases hwritten with
  | inline capacity' hcapacity' hsmall hfits hcounts htext =>
    refine iff_of_true ?_ fun h => ?_
    · refine read_inline hcounts hsmall ?_ (take_withTerminator text ▸ htext.take _)
        (Utf8.decode?_encode text)
      rw [Utf8.length_encode]
      omega
    · have := h.1
      omega
  | block other hlarge hfits hbefore hne hcounts hafter htext =>
    refine iff_of_true (read_block hcounts hlarge rfl hafter hne htext) fun h => hne ?_
    rw [← hheap.unique hbefore, h.2.1]
  | moved hwhy hcounts hafter hne hlimit hlimit' htext hkeeps =>
    by_cases hshort : Utf8.size text < Builtin.inlineCapacity
    · obtain ⟨hlarge, hnull⟩ :
          Builtin.inlineCapacity ≤ capacity ∧ b.HoldsWord p order a.toNat 0 := by
        rcases hwhy with hwhy | hwhy
        · exact hwhy
        · omega
      have hnew := powerOfTwo_succ_le_inlineCapacity hshort
      have hsmall : powerOfTwo (Utf8.size text + 1) - 1 < Builtin.inlineCapacity := by omega
      -- the reader finds the pointer and what was behind it
      have hrest : b'.Holds (a.toNat + p.pointerSize) (inline.drop p.pointerSize) := by
        have hpart := hinline.part p.pointerSize (16 - p.pointerSize) (by omega)
        rw [List.take_of_length_le (by rw [List.length_drop]; omega)] at hpart
        refine hkeeps.holds hpart fun x hx => ?_
        simp only [Buffer.Within, List.length_drop] at *
        omega
      have hstale : b'.Holds a.toNat (staleBytes p order b.nextBlock inline) :=
        hafter.holds.append (by rwa [Buffer.length_wordBytes])
      have hlength : ((staleBytes p order b.nextBlock inline).take (Utf8.size text)).length =
          min (Utf8.size text) Builtin.inlineCapacity := by
        rw [List.length_take, staleBytes, List.length_append, Buffer.length_wordBytes,
          List.length_drop]
        omega
      cases hdecode : Utf8.decode? ((staleBytes p order b.nextBlock inline).take (Utf8.size text))
        with
      | none =>
        refine iff_of_true (read_inline_malformed hcounts hsmall hlength (hstale.take _) hdecode rfl
          hafter hne htext) ?_
        rintro ⟨-, -, -, other, -, hother⟩
        rw [hdecode] at hother
        cases hother
      | some found =>
        have hread := read_inline (s := s) hcounts hsmall hlength (hstale.take _) hdecode
        constructor
        · rintro htrue ⟨-, -, -, other, hother, hdecode'⟩
          rw [hdecode] at hdecode'
          cases hdecode'
          exact hother (hread.unique htrue).1
        · intro hmisread
          by_cases hfound : found = text
          · rwa [hfound] at hread
          · exact absurd ⟨hlarge, hheap.unique hnull, hshort, found, hfound, hdecode⟩ hmisread
    · have hnew := le_powerOfTwo (Utf8.size text + 1)
      exact iff_of_true (read_block hcounts (by omega) rfl hafter hne htext)
        fun h => hshort h.2.2.1

/-- An object at the address 4096 that has a block of 32 bytes behind it, with the text "abc". -/
def blockObject : Buffer :=
  ⟨4096, bytesOfWord 4128 8 false ++ List.replicate 8 0 ++ bytesOfWord 3 8 false ++
    bytesOfWord 31 8 false ++ [97, 98, 99] ++ List.replicate 29 0, []⟩

/-- A text that is too long for the inline buffer is put into the block. -/
theorem read_after_write_blockObject :
    ∃ b', (write (Buffer.space .host .empty) 4096 "kept in the block" .little).Yields blockObject ()
        b' ∧ b'.memory.length = 64 ∧
      (read (Buffer.space .host .empty) 4096 .little).Yields b' "kept in the block" b' := by
  have hmapped : blockObject.Mapped (4096 : Address).toNat (16 + 2 * Platform.host.pointerSize) :=
    ⟨by decide, by decide, by decide⟩
  have hinline : (Buffer.readBytes 4096 16).Yields blockObject
      (bytesOfWord 4128 8 false ++ List.replicate 8 0) blockObject := by
    decide +kernel
  have hcapacity : ((Buffer.port .host).readWord 4120 .little).Yields blockObject 31
      blockObject := by
    decide +kernel
  have hheap : ((Buffer.port .host).readWord 4096 .little).Yields blockObject 4128
      blockObject := by
    decide +kernel
  have hwrite : (write (Buffer.space .host .empty) 4096 "kept in the block" .little).Yields
      blockObject () (Access.eval
        (write (Buffer.space .host .empty) 4096 "kept in the block" .little) blockObject).2 := by
    decide +kernel
  refine ⟨_, hwrite, by decide +kernel, (read_after_write_iff hmapped (by decide)
    (Buffer.readBytes_yields_iff.mp hinline).2.2 rfl
    ⟨by decide, (Buffer.readWord_yields_iff.mp hcapacity).2⟩
    (Buffer.readWord_yields_iff.mp hheap).2 ?_ hwrite).mpr ?_⟩
  · -- the block begins where the object ends
    intro _ _ _
    exact Or.inr le_rfl
  · intro hmisread
    exact absurd hmisread.2.1 (by decide)

/-- A platform on which string objects have an inline buffer. -/
def windowsPlatform : Platform := ⟨.b64, .windows, .little⟩

/-- An object of zeros but for its capacity of 31, at the address 4096. -/
def blocklessObject : Buffer :=
  ⟨4096, List.replicate 24 0 ++ 31 :: List.replicate 7 0, []⟩

/-- So a text that is written does not always come back. -/
theorem not_read_after_write :
    ¬ ∀ (p : Platform) (s : Schema) (order : ByteOrder) (a : Address) (text : String)
      (b b' : Buffer) (capacity : Nat) (heap : Address),
      b.Mapped a.toNat (16 + 2 * p.pointerSize) →
      b.HoldsCount p order (a.toNat + 16 + p.pointerSize) capacity →
      b.HoldsWord p order a.toNat heap →
      (Builtin.inlineCapacity ≤ capacity → heap ≠ 0 → Utf8.size text ≤ capacity →
        b.Mapped heap.toNat (Utf8.size text + 1) ∧
          (heap.toNat + (Utf8.size text + 1) ≤ a.toNat ∨
            a.toNat + (16 + 2 * p.pointerSize) ≤ heap.toNat)) →
      (write (Buffer.space p s) a text order).Yields b () b' →
      (read (Buffer.space p s) a order).Yields b' text b' := by
  intro h
  let b' : Buffer :=
    (Access.eval (write (Buffer.space windowsPlatform .empty) 4096 "hi" .little) blocklessObject).2
  have hcapacity : ((Buffer.port windowsPlatform).readWord 4120 .little).Yields blocklessObject 31
      blocklessObject := by
    decide +kernel
  have hheap : ((Buffer.port windowsPlatform).readWord 4096 .little).Yields blocklessObject 0
      blocklessObject := by
    decide +kernel
  have hwrite : (write (Buffer.space windowsPlatform .empty) 4096 "hi" .little).Yields
      blocklessObject () b' := by
    decide +kernel
  have hread :
      (read (Buffer.space windowsPlatform .empty) 4096 .little).Yields b' " \u0010" b' := by
    decide +kernel
  have hback := h windowsPlatform .empty .little 4096 "hi" blocklessObject b' 31 0
    ⟨by decide, by decide, by decide⟩ ⟨by decide, (Buffer.readWord_yields_iff.mp hcapacity).2⟩
    (Buffer.readWord_yields_iff.mp hheap).2 (fun _ hne => absurd rfl hne) hwrite
  exact absurd (hread.unique hback).1 (by decide)

end ShortString

end TypedMemory
