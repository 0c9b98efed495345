import TypedMemory.Proofs.StringObject.Short

/-!
# What a write leaves in an object with an inline buffer

`written_of_write`: after a write the characters are within the object, in the block
that it had, or in a new block (`Written`), and beside that the buffer is unchanged.
-/

namespace TypedMemory

open StringObject

namespace ShortString

variable {p : Platform} {s : Schema} {order : ByteOrder} {a : Address} {b b' : Buffer}
  {text : String}

/-- The buffer `b'` after a text was written to an object of `b` with this capacity. -/
inductive Written (b b' : Buffer) (p : Platform) (order : ByteOrder) (a : Address) (text : String)
    (capacity : Nat) : Prop
  | inline (capacity' : Nat) (hcapacity : capacity' = capacity ∨ capacity < 15 ∧ capacity' = 15)
      (hsmall : capacity' < Builtin.inlineCapacity) (hfits : Utf8.size text ≤ capacity')
      (hcounts : HoldsCounts b' p order a (Utf8.size text) capacity')
      (htext : b'.Holds a.toNat (withTerminator text))
      (hkeeps : b.Keeps b' (Buffer.Within a.toNat (16 + 2 * p.pointerSize)))
      (halloc : b'.allocations = b.allocations)
  | block (heap : Address) (hlarge : Builtin.inlineCapacity ≤ capacity)
      (hfits : Utf8.size text ≤ capacity) (hbefore : b.HoldsWord p order a.toNat heap)
      (hne : heap ≠ 0) (hcounts : HoldsCounts b' p order a (Utf8.size text) capacity)
      (hheap : b'.HoldsWord p order a.toNat heap)
      (htext : b'.Holds heap.toNat (withTerminator text))
      (hkeeps : b.Keeps b' fun x => Buffer.Within a.toNat (16 + 2 * p.pointerSize) x ∨
        Buffer.Within heap.toNat (Utf8.size text + 1) x)
      (halloc : b'.allocations = b.allocations)
  | moved (hwhy : Builtin.inlineCapacity ≤ capacity ∧ b.HoldsWord p order a.toNat 0 ∨
        capacity < Utf8.size text ∧ Builtin.inlineCapacity ≤ Utf8.size text)
      (hcounts : HoldsCounts b' p order a (Utf8.size text) (powerOfTwo (Utf8.size text + 1) - 1))
      (hheap : b'.HoldsWord p order a.toNat b.nextBlock)
      (hne : b.nextBlock ≠ 0) (hlimit : b.limit ≤ b.nextBlock.toNat)
      (hlimit' : b'.limit = b.nextBlock.toNat + powerOfTwo (Utf8.size text + 1))
      (htext : b'.Holds b.nextBlock.toNat (withTerminator text))
      (hkeeps : b.Keeps b' fun x => Buffer.Within a.toNat p.pointerSize x ∨
        Buffer.Within (a.toNat + 16) (2 * p.pointerSize) x)
      (halloc : b'.allocations =
        b.allocations ++ [⟨b.nextBlock, powerOfTwo (Utf8.size text + 1)⟩])

theorem limit_moved {data : Bytes} (hmove : CanMove b p a data) :
    (moved b p order a data).limit = (b.grown (powerOfTwo data.length)).limit := by
  obtain ⟨-, hpm, hdm, -, hcm⟩ := hmove
  have hfirst : ((b.grown (powerOfTwo data.length))).Keeps
      (Buffer.store _ a.toNat (Buffer.wordBytes p order _)) _ :=
    Buffer.keeps_storeWord hpm b.nextBlock
  have hdm₁ := hfirst.mapped hdm
  have hsecond : Buffer.Keeps _ (Buffer.store _ b.nextBlock.toNat data) fun _ => True :=
    Buffer.keeps_store hdm₁ fun _ _ => trivial
  have hcm₂ := hsecond.mapped (hfirst.mapped hcm)
  unfold moved
  simp only
  rw [Buffer.limit_store (by rwa [Buffer.length_wordBytes]), Buffer.limit_store hdm₁,
    Buffer.limit_store (by rwa [Buffer.length_wordBytes])]

/-- A new block lies behind all that was there, and the object points to it. -/
theorem moved_spec (hobject : b.Mapped a.toNat (16 + 2 * p.pointerSize))
    (hroom : roundUp b.memory.length blockAlignment < wordLimit)
    (hmove : CanMove b p a (withTerminator text)) :
    b.limit ≤ b.nextBlock.toNat ∧ Utf8.size text + 1 < wordLimit ∧
    (moved b p order a (withTerminator text)).limit =
      b.nextBlock.toNat + powerOfTwo (Utf8.size text + 1) ∧
    (moved b p order a (withTerminator text)).HoldsWord p order a.toNat b.nextBlock ∧
    (moved b p order a (withTerminator text)).HoldsCount p order (a.toNat + 16 + p.pointerSize)
      (powerOfTwo (Utf8.size text + 1) - 1) ∧
    (moved b p order a (withTerminator text)).Holds b.nextBlock.toNat (withTerminator text) ∧
    b.Keeps (moved b p order a (withTerminator text)) fun x =>
      Buffer.Within a.toNat p.pointerSize x ∨
        Buffer.Within (a.toNat + 16 + p.pointerSize) p.pointerSize x := by
  have hend' : (moved b p order a (withTerminator text)).limit = _ := limit_moved hmove
  obtain ⟨hpointer, hpm, hdm, hcapacity, hcm⟩ := hmove
  unfold moved at hend' ⊢
  rw [length_withTerminator] at *
  simp only at hend' ⊢
  have hbase : b.base.toNat ≤ b.nextBlock.toNat := hdm.base_le
  have hlimit := Buffer.limit_le_nextBlock hroom hbase
  have hlt := Buffer.size_lt_of_mapped hdm
  have hend := hobject.le_limit
  have hspace : p.pointerSize ≤ 8 := p.pointerSize_le
  have hn := powerOfTwo_le_wordLimit hlt
  have hnpos := le_powerOfTwo (Utf8.size text + 1)
  have hgrown := b.limit_grown (powerOfTwo (Utf8.size text + 1))
  rw [← Buffer.toNat_nextBlock hroom hbase] at hgrown
  generalize powerOfTwo (Utf8.size text + 1) = n at *
  -- the pointer, the characters and the capacity are stored one after the other
  have hfirst : (b.grown n).Keeps ((b.grown n).store a.toNat (Buffer.wordBytes p order _)) _ :=
    Buffer.keeps_storeWord hpm b.nextBlock
  have hdm₁ := hfirst.mapped hdm
  have hsecond := Buffer.keeps_storeText hdm₁
  have hcm₂ := hsecond.mapped (hfirst.mapped hcm)
  have hthird : Buffer.Keeps _ (Buffer.store _ _ (Buffer.wordBytes p order _)) _ :=
    Buffer.keeps_storeWord hcm₂ (UInt64.ofNat (n - 1))
  refine ⟨hlimit, hlt, ?_, ?_, hcm₂.holdsCount_store (by omega) hcapacity, ?_, ?_⟩
  · exact hend'.trans hgrown
  · refine hthird.holdsWord (hsecond.holdsWord (hpm.holdsWord_store hpointer) ?_) ?_
    all_goals
      intro x hx
      simp only [Buffer.Within] at *
      omega
  · refine hthird.holds (Buffer.holds_storeText hdm₁) fun x hx => ?_
    rw [length_withTerminator] at hx
    simp only [Buffer.Within] at *
    omega
  · have hall : b.Keeps _ fun x => Buffer.Within a.toNat p.pointerSize x ∨
        Buffer.Within b.nextBlock.toNat (Utf8.size text + 1) x ∨
          Buffer.Within (a.toNat + 16 + p.pointerSize) p.pointerSize x :=
      (((Buffer.keeps_grown b n _).trans (hfirst.mono fun x hx => Or.inl hx)).trans
        (hsecond.mono fun x hx => Or.inr (Or.inl hx))).trans
          (hthird.mono fun x hx => Or.inr (Or.inr hx))
    refine hall.of_lt_limit fun x hx hchanged => ?_
    simp only [Buffer.Within] at *
    omega

/-- Setting the length leaves the capacity behind it. -/
theorem holdsCounts_setLength (hinside : a.toNat + 16 + p.pointerSize < wordLimit)
    (hm : b.Mapped (a.toNat + 16) p.pointerSize) {length capacity : Nat}
    (hlt : length < wordLimit) (hfits : (UInt64.ofNat length).toNat < 256 ^ p.pointerSize)
    (hcapacity : b.HoldsCount p order (a.toNat + 16 + p.pointerSize) capacity) :
    HoldsCounts (b.store (a.toNat + 16) (Buffer.wordBytes p order (UInt64.ofNat length)))
      p order a length capacity := by
  refine ⟨hinside, hm.holdsCount_store hlt hfits, ?_⟩
  refine (Buffer.keeps_storeWord hm _).holdsCount hcapacity fun x hx => ?_
  simp only [Buffer.Within] at *
  omega

/-- A write to a mapped object, of which the block lies apart. -/
theorem written_of_write (hobject : b.Mapped a.toNat (16 + 2 * p.pointerSize))
    (hinside : a.toNat + 16 + p.pointerSize < wordLimit)
    (hroom : roundUp b.memory.length blockAlignment < wordLimit ∨ b'.limit ≤ wordLimit)
    {capacity : Nat} (hcapacity : b.HoldsCount p order (a.toNat + 16 + p.pointerSize) capacity)
    (hapart : ∀ heap, Builtin.inlineCapacity ≤ capacity → Utf8.size text ≤ capacity →
      b.HoldsWord p order a.toNat heap → heap ≠ 0 →
        heap.toNat + (Utf8.size text + 1) ≤ a.toNat ∨
          a.toNat + (16 + 2 * p.pointerSize) ≤ heap.toNat)
    {u : Unit} (hwrite : (write (Buffer.space p s) a text order).Yields b u b') :
    Written b b' p order a text capacity := by
  have hpointer : p.pointerSize ≤ 8 := p.pointerSize_le
  have hinline : Builtin.inlineCapacity = 16 := rfl
  have hlen := length_withTerminator text
  obtain ⟨b₁, hplaces, hsize, hlength, rfl⟩ := write_yields hinside hcapacity hwrite
  -- setting the length keeps all that the text was put into
  have hset : b₁.Keeps (b₁.store (a.toNat + 16) (Buffer.wordBytes p order _)) _ :=
    Buffer.keeps_storeWord hlength (UInt64.ofNat (Utf8.size text))
  cases hplaces with
  | inline hfits hsmall hm =>
    have hkeeps := Buffer.keeps_storeText hm
    have hlt := Buffer.size_lt_of_mapped hm
    have hcapacity₁ := hkeeps.holdsCount hcapacity fun x hx => by
      simp only [Buffer.Within] at *
      omega
    refine Written.inline capacity (Or.inl rfl) hsmall hfits
      (holdsCounts_setLength hinside hlength (by omega) hsize hcapacity₁) ?_ ?_ rfl
    · refine hset.holds (Buffer.holds_storeText hm) fun x hx => ?_
      simp only [Buffer.Within] at *
      omega
    · refine (hkeeps.mono fun x hx => ?_).trans (hset.mono fun x hx => ?_)
      all_goals
        simp only [Buffer.Within] at *
        omega
  | enlarged hover hshort hm hcm hfits =>
    have hfirst := Buffer.keeps_storeText hm
    have hcm₁ := hfirst.mapped hcm
    have hsecond : Buffer.Keeps _ (Buffer.store _ _ (Buffer.wordBytes p order _)) _ :=
      Buffer.keeps_storeWord hcm₁ (UInt64.ofNat 15)
    have hlt := Buffer.size_lt_of_mapped hm
    refine Written.inline 15 (Or.inr ⟨by omega, rfl⟩) (by decide) (by omega)
      (holdsCounts_setLength hinside hlength (by omega) hsize
        (hcm₁.holdsCount_store (by decide) hfits)) ?_ ?_ rfl
    · refine hset.holds (hsecond.holds (Buffer.holds_storeText hm) ?_) ?_
      all_goals
        intro x hx
        simp only [Buffer.Within] at *
        omega
    · refine ((hfirst.mono fun x hx => ?_).trans (hsecond.mono fun x hx => ?_)).trans
        (hset.mono fun x hx => ?_)
      all_goals
        simp only [Buffer.Within] at *
        omega
  | block heap hfits hlarge hheap hne hm =>
    have hkeeps := Buffer.keeps_storeText hm
    have hlt := Buffer.size_lt_of_mapped hm
    have hout := hapart heap hlarge hfits hheap hne
    have hcapacity₁ := hkeeps.holdsCount hcapacity fun x hx => by
      simp only [Buffer.Within] at *
      omega
    refine Written.block heap hlarge hfits hheap hne
      (holdsCounts_setLength hinside hlength (by omega) hsize hcapacity₁) ?_ ?_ ?_ rfl
    · refine hset.holdsWord (hkeeps.holdsWord hheap ?_) ?_
      all_goals
        intro x hx
        simp only [Buffer.Within] at *
        omega
    · refine hset.holds (Buffer.holds_storeText hm) fun x hx => ?_
      simp only [Buffer.Within] at *
      omega
    · refine (hkeeps.mono fun x hx => Or.inr hx).trans (hset.mono fun x hx => Or.inl ?_)
      simp only [Buffer.Within] at *
      omega
  | moved hwhy hmove =>
    have hend := hobject.le_limit
    have hround : roundUp b.memory.length blockAlignment < wordLimit := by
      rcases hroom with hroom | hroom
      · exact hroom
      · have hgrown := b.limit_grown (powerOfTwo (withTerminator text).length)
        rw [Buffer.limit_store (by rwa [Buffer.length_wordBytes]), limit_moved hmove] at hroom
        have hpos := le_powerOfTwo (withTerminator text).length
        omega
    obtain ⟨hlimit, hlt, hlimit', hheap, hcapacity₁, htext, hkeeps⟩ :=
      moved_spec hobject hround hmove
    have hne : b.nextBlock ≠ 0 := by
      intro hzero
      rw [hzero] at hlimit
      have : (0 : Address).toNat = 0 := rfl
      omega
    refine Written.moved hwhy (holdsCounts_setLength hinside hlength (by omega) hsize hcapacity₁)
      ?_ hne hlimit ?_ ?_ ?_ ?_
    · refine hset.holdsWord hheap fun x hx => ?_
      simp only [Buffer.Within] at *
      omega
    · rw [Buffer.limit_store (by rwa [Buffer.length_wordBytes]), hlimit']
    · refine hset.holds htext fun x hx => ?_
      simp only [Buffer.Within] at *
      omega
    · refine (hkeeps.mono fun x hx => ?_).trans (hset.mono fun x hx => ?_)
      all_goals
        simp only [Buffer.Within] at *
        omega
    · rw [← hlen]
      rfl

end ShortString

end TypedMemory
