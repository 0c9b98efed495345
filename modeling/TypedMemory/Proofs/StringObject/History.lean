import Mathlib.Data.List.Pairwise
import Mathlib.Logic.Function.Basic
import TypedMemory.Proofs.StringObject.Slots

/-!
# Histories of string objects

String objects next to each other in one buffer, and texts that are written to them in
any order.  An object that outgrows its block gets another behind the region, so the
objects do not get into each other's way: `Tracked` is what holds all the time,
`Tracked.write` is one write and `Tracked.writeAll` is a history.
-/

namespace TypedMemory

namespace StringSlot

variable {p : Platform} {s : Schema} {b₀ b b' : Buffer} {slots : List StringSlot}
  {texts : StringSlot → Option String} {blocks : StringSlot → Option Allocation}

/-! ### Writing and what is written -/

/-- Writes texts to objects, one after the other. -/
def writeAll (p : Platform) (s : Schema) (writes : List (StringSlot × String)) :
    Access Buffer Unit :=
  forM writes fun (slot, text) => slot.write p s text

/-- The text of each object after one more is written. -/
def record (texts : StringSlot → Option String) (write : StringSlot × String) :
    StringSlot → Option String :=
  Function.update texts write.1 (some write.2)

/-- The text that was last written to each object. -/
def lastTexts (writes : List (StringSlot × String)) : StringSlot → Option String :=
  writes.foldl record fun _ => none

theorem grows_writeAll (writes : List (StringSlot × String)) :
    Buffer.Grows (writeAll p s writes) :=
  Buffer.Grows.forM (fun (slot, text) => slot.grows_write p s text) writes

/-! ### The invariant -/

/-- The objects are mapped in the buffer, and no two of them overlap. -/
structure Placed (p : Platform) (b₀ : Buffer) (slots : List StringSlot) : Prop where
  apart : slots.Pairwise (Apart p)
  mapped : ∀ slot ∈ slots, b₀.Mapped slot.address.toNat (slot.size p)

/-- The objects of `b₀`, with their texts and blocks in the later buffer `b`. -/
structure Tracked (p : Platform) (b₀ b : Buffer) (slots : List StringSlot)
    (texts : StringSlot → Option String) (blocks : StringSlot → Option Allocation) : Prop where
  state : ∀ slot ∈ slots, slot.State b p (texts slot) (blocks slot)
  /-- Every block was added behind the first region. -/
  added : ∀ slot ∈ slots, ∀ k ∈ blocks slot, k ∈ b.allocations ∧ b₀.limit ≤ k.address.toNat ∧
    k.address.toNat + k.size ≤ b.limit
  apart : ∀ slot ∈ slots, ∀ other ∈ slots, slot ≠ other →
    ∀ k ∈ blocks slot, ∀ l ∈ blocks other, k.Apart l
  keeps : b₀.Keeps b fun x => ∃ slot ∈ slots, slot.Covers p x

namespace Tracked

/-- Objects of zeros. -/
theorem of_zeros (hlimit : b₀.limit ≤ wordLimit)
    (hzero : ∀ slot ∈ slots, b₀.Holds slot.address.toNat (List.replicate (slot.size p) 0)) :
    Tracked p b₀ b₀ slots (fun _ => none) fun _ => none where
  state slot hslot := State.of_zeros (hzero slot hslot) hlimit
  added _ _ _ hk := absurd hk (Option.not_mem_none _)
  apart _ _ _ _ _ _ hk := absurd hk (Option.not_mem_none _)
  keeps := Buffer.Keeps.refl _ _

section Step

variable (h : Tracked p b₀ b slots texts blocks) (hplaced : Placed p b₀ slots)

include h

theorem mapped (hplaced : Placed p b₀ slots) {slot : StringSlot} (hslot : slot ∈ slots) :
    b.Mapped slot.address.toNat (slot.size p) :=
  h.keeps.mapped (hplaced.mapped slot hslot)

include hplaced

/-- Every object lies before every block. -/
theorem before_block {slot other : StringSlot} (hslot : slot ∈ slots) (hother : other ∈ slots)
    {k : Allocation} (hk : k ∈ blocks other) :
    slot.address.toNat + slot.size p ≤ k.address.toNat :=
  (hplaced.mapped slot hslot).le_limit.trans (h.added other hother k hk).2.1

/-- Two objects own different bytes. -/
theorem not_owns {slot other : StringSlot} (hslot : slot ∈ slots) (hother : other ∈ slots)
    (hne : slot ≠ other) {x : Nat} (hx : slot.Owns p (blocks slot) x) :
    ¬ other.Owns p (blocks other) x := by
  intro hx'
  rcases hx with hx | ⟨k, hk, hx⟩
  · rcases hx' with hx' | ⟨l, hl, hx'⟩
    · have hapart := hplaced.apart.forall hslot hother hne
      simp only [Covers, Apart, Buffer.Within] at *
      omega
    · have hbefore := h.before_block hplaced hslot hother hl
      simp only [Covers, Allocation.Covers, Buffer.Within] at *
      omega
  · rcases hx' with hx' | ⟨l, hl, hx'⟩
    · have hbefore := h.before_block hplaced hother hslot hk
      simp only [Covers, Allocation.Covers, Buffer.Within] at *
      omega
    · have hapart := h.apart slot hslot other hother hne k hk l hl
      simp only [Allocation.Covers, Allocation.Apart, Buffer.Within] at *
      omega

/-- After a write to one of the objects, that has the text and the others are as they were. -/
theorem rewritten {slot : StringSlot} (hslot : slot ∈ slots) {text : String}
    {block' : Option Allocation} (hnew : Rewritten b b' p slot text (blocks slot) block') :
    Tracked p b₀ b' slots (record texts (slot, text)) (Function.update blocks slot block') := by
  have hgrown := hnew.keeps.limit_le
  have hbehind := h.keeps.limit_le
  refine ⟨fun other hother => ?_, fun other hother k hk => ?_,
    fun other hother another hanother hne k hk l hl => ?_, ?_⟩
  · by_cases hsame : other = slot
    · rw [hsame, record, Function.update_self, Function.update_self]
      exact hnew.state
    · rw [record, Function.update_of_ne hsame, Function.update_of_ne hsame]
      exact (h.state other hother).keeps hnew.keeps fun x hx =>
        h.not_owns hplaced hother hslot hsame hx
  · have hold : ∀ {k : Allocation}, k ∈ blocks other → k ∈ b'.allocations ∧
        b₀.limit ≤ k.address.toNat ∧ k.address.toNat + k.size ≤ b'.limit := by
      intro k hk
      obtain ⟨hmem, hfirst, hend⟩ := h.added other hother k hk
      exact ⟨hnew.mem_allocations hmem, hfirst, hend.trans hgrown⟩
    by_cases hsame : other = slot
    · subst hsame
      rw [Function.update_self] at hk
      rcases hnew.mem_block hk with hk | ⟨hmem, hfirst, hend⟩
      · exact hold hk
      · exact ⟨hmem, hbehind.trans hfirst, hend⟩
    · rw [Function.update_of_ne hsame] at hk
      exact hold hk
  · -- a new block lies behind those that the other objects have
    have hfresh : ∀ {other : StringSlot}, other ∈ slots → other ≠ slot → ∀ {k l : Allocation},
        k ∈ block' → l ∈ blocks other → k.Apart l := by
      intro other hother hne k l hk hl
      rcases hnew.mem_block hk with hk | ⟨-, hfirst, -⟩
      · exact h.apart slot hslot other hother hne.symm k hk l hl
      · exact Or.inr ((h.added other hother l hl).2.2.trans hfirst)
    by_cases hsame : other = slot
    · subst hsame
      rw [Function.update_self] at hk
      rw [Function.update_of_ne hne.symm] at hl
      exact hfresh hanother hne.symm hk hl
    · rw [Function.update_of_ne hsame] at hk
      by_cases hsame' : another = slot
      · subst hsame'
        rw [Function.update_self] at hl
        exact symm (hfresh hother hsame hl hk)
      · rw [Function.update_of_ne hsame'] at hl
        exact h.apart other hother another hanother hne k hk l hl
  · have hall := (h.keeps.mono fun x hx => Or.inl hx).trans
      (hnew.keeps.mono fun x hx => Or.inr hx)
    refine hall.of_lt_limit fun x hx hchanged => ?_
    rcases hchanged with hchanged | hchanged | ⟨k, hk, hchanged⟩
    · exact hchanged
    · exact ⟨slot, hslot, hchanged⟩
    · have hfirst := (h.added slot hslot k hk).2.1
      simp only [Allocation.Covers, Buffer.Within] at hchanged
      omega

end Step

/-- A write to one of the objects. -/
theorem write (h : Tracked p b₀ b slots texts blocks) (hplaced : Placed p b₀ slots)
    {slot : StringSlot} (hslot : slot ∈ slots) (hlimit : b'.limit ≤ wordLimit) {text : String}
    {u : Unit} (hwrite : (slot.write p s text).Yields b u b') :
    ∃ blocks', Tracked p b₀ b' slots (record texts (slot, text)) blocks' := by
  obtain ⟨block', hnew⟩ := (h.state slot hslot).written (h.mapped hplaced hslot) hlimit
    (fun k hk => h.before_block hplaced hslot hslot hk) hwrite
  exact ⟨_, h.rewritten hplaced hslot hnew⟩

/-- Writes to the objects in any order. -/
theorem writeAll (h : Tracked p b₀ b slots texts blocks) (hplaced : Placed p b₀ slots)
    {writes : List (StringSlot × String)} (hwrites : ∀ w ∈ writes, w.1 ∈ slots)
    (hlimit : b'.limit ≤ wordLimit) (hrun : (StringSlot.writeAll p s writes).Yields b () b') :
    ∃ blocks', Tracked p b₀ b' slots (writes.foldl record texts) blocks' := by
  induction writes generalizing b texts blocks with
  | nil =>
    obtain ⟨-, rfl⟩ := Access.yields_pure.mp hrun
    exact ⟨blocks, h⟩
  | cons w rest ih =>
    unfold StringSlot.writeAll at hrun
    rw [List.forM_cons] at hrun
    obtain ⟨_, b₁, hfirst, hrest⟩ := Access.yields_bind.mp hrun
    -- the region only grows, so it is within the address space all the time
    have hbetween := grows_writeAll rest b₁ () b' hrest
    obtain ⟨blocks₁, h₁⟩ := h.write hplaced (hwrites w List.mem_cons_self)
      (hbetween.trans hlimit) hfirst
    exact ih h₁ (fun w hw => hwrites w (List.mem_cons_of_mem _ hw)) hrest

end Tracked

/-! ### Histories -/

/-- After any writes to objects of zeros, every object is read as its last text, owns its
block alone, and the rest of the first region is as it was.  Regions only grow, so it is
enough that the last one ends in the address space. -/
theorem texts_after_writes (hapart : slots.Pairwise (Apart p))
    (hzero : ∀ slot ∈ slots, b₀.Holds slot.address.toNat (List.replicate (slot.size p) 0))
    {writes : List (StringSlot × String)} (hwrites : ∀ w ∈ writes, w.1 ∈ slots)
    (hlimit : b.limit ≤ wordLimit) (hrun : (writeAll p s writes).Yields b₀ () b) :
    (∀ slot ∈ slots, (slot.read p s).Yields b (.text ((lastTexts writes slot).getD "")) b) ∧
    (∃ blocks : StringSlot → Option Allocation,
      (∀ slot ∈ slots, slot.State b p (lastTexts writes slot) (blocks slot)) ∧
      (∀ slot ∈ slots, ∀ k ∈ blocks slot, k ∈ b.allocations ∧ b₀.limit ≤ k.address.toNat ∧
        k.address.toNat + k.size ≤ b.limit) ∧
      ∀ slot ∈ slots, ∀ other ∈ slots, slot ≠ other →
        ∀ k ∈ blocks slot, ∀ l ∈ blocks other, k.Apart l) ∧
    ∀ x, x < b₀.limit → (∀ slot ∈ slots, ¬ slot.Covers p x) → b.byte? x = b₀.byte? x := by
  have hplaced : Placed p b₀ slots := by
    refine ⟨hapart, fun slot hslot => ?_⟩
    have hmapped := (hzero slot hslot).mapped
    rwa [List.length_replicate] at hmapped
  have hstart : b₀.limit ≤ wordLimit := (grows_writeAll writes b₀ () b hrun).trans hlimit
  obtain ⟨blocks, h⟩ := (Tracked.of_zeros hstart hzero).writeAll hplaced hwrites hlimit hrun
  refine ⟨fun slot hslot => ?_, ⟨blocks, h.state, h.added, h.apart⟩, fun x hx hout => ?_⟩
  · exact (h.state slot hslot).read_yields (h.mapped hplaced hslot)
  · refine h.keeps.byte_eq x hx ?_
    rintro ⟨slot, hslot, hcovers⟩
    exact hout slot hslot hcovers

/-- An object with an inline buffer at the address 4096. -/
def shortExample : StringSlot := ⟨4096, .sso, .little⟩

/-- An object with counted references behind it. -/
def countedExample : StringSlot := ⟨4128, .refCounted, .big⟩

/-- Both objects outgrow their blocks in turn, and then one gets shorter. -/
def alternatingWrites : List (StringSlot × String) :=
  [(shortExample, "short"), (countedExample, "counted"), (shortExample, "longer than an object"),
    (countedExample, "longer than its first block"), (shortExample, "again")]

theorem texts_after_alternatingWrites :
    ∃ b, (writeAll .host .empty alternatingWrites).Yields (.zeroed 4096 40) () b ∧
      (shortExample.read .host .empty).Yields b (.text "again") b ∧
      (countedExample.read .host .empty).Yields b (.text "longer than its first block") b := by
  have hrun : (writeAll .host .empty alternatingWrites).Yields (.zeroed 4096 40) ()
      (Access.eval (writeAll .host .empty alternatingWrites) (.zeroed 4096 40)).2 := by
    decide +kernel
  have hshort : (Buffer.readBytes 4096 32).Yields (.zeroed 4096 40) (List.replicate 32 0)
      (.zeroed 4096 40) := by
    decide +kernel
  have hcounted : (Buffer.readBytes 4128 8).Yields (.zeroed 4096 40) (List.replicate 8 0)
      (.zeroed 4096 40) := by
    decide +kernel
  have hzero : ∀ slot ∈ [shortExample, countedExample], (Buffer.zeroed 4096 40).Holds
      slot.address.toNat (List.replicate (slot.size .host) 0) := by
    intro slot hslot
    rcases List.mem_pair.mp hslot with rfl | rfl
    · exact (Buffer.readBytes_yields_iff.mp hshort).2.2
    · exact (Buffer.readBytes_yields_iff.mp hcounted).2.2
  have htexts := texts_after_writes (List.pairwise_pair.mpr (Or.inl (by decide))) hzero
    (by decide) (by decide +kernel) hrun
  exact ⟨_, hrun, htexts.1 shortExample (by decide), htexts.1 countedExample (by decide)⟩

end StringSlot

end TypedMemory
