import TypedMemory.Proofs.Buffer.Growth
import TypedMemory.Proofs.Text.Utf8
import TypedMemory.StringObject.Counted
import TypedMemory.StringObject.Short

/-!
# The characters and counts of string objects

Both representations keep a text with a terminator behind it, and numbers in members
that are as wide as a pointer.
-/

namespace TypedMemory

open StringObject

theorem powerOfTwo_le_wordLimit {n : Nat} (h : n < wordLimit) : powerOfTwo n ≤ wordLimit :=
  (powerOfTwo_le_iff n 64).mpr (Nat.le_of_lt h)

/-! ### Texts -/

namespace StringObject

theorem length_withTerminator (text : String) :
    (withTerminator text).length = Utf8.size text + 1 := by
  rw [withTerminator, List.length_append, Utf8.length_encode, List.length_singleton]

theorem take_withTerminator (text : String) :
    (withTerminator text).take (Utf8.size text) = Utf8.encode text := by
  rw [withTerminator, ← Utf8.length_encode, List.take_left]

theorem decodeContent_encode (a : Address) (text : String) :
    decodeContent a (Utf8.encode text) = .ok text := by
  rw [decodeContent, Utf8.decode?_encode]

theorem contentOrEmpty_encode (a : Address) (text : String) :
    contentOrEmpty a (Utf8.encode text) = text := by
  rw [contentOrEmpty, decodeContent_encode]
  rfl

/-- Reading the characters where the text and its terminator lie. -/
theorem readBytes_encode {b : Buffer} {a : Address} {text : String}
    (h : b.Holds a.toNat (withTerminator text)) :
    (Buffer.readBytes a (Utf8.size text)).Yields b (Utf8.encode text) b := by
  refine Buffer.readBytes_yields_iff.mpr ⟨rfl, Utf8.length_encode text, ?_⟩
  rw [← take_withTerminator]
  exact h.take _

end StringObject

/-! ### Counts -/

namespace CompositeView

variable {p : Platform} {s : Schema}

theorem grows_readCount (view : CompositeView) (name : String) :
    Buffer.Grows (CountedString.readCount (Buffer.space p s) view name) :=
  (Buffer.Grows.liftM _).bind fun _ => Buffer.grows_readWord.bind fun _ => Buffer.Grows.pure _

theorem grows_writeCount (view : CompositeView) (name : String) (count : Nat) :
    Buffer.Grows (CountedString.writeCount (Buffer.space p s) view name count) :=
  (Buffer.Grows.liftM _).bind fun _ => Buffer.grows_writeWord _
section Member

variable {b b' : Buffer} {view : CompositeView} {name : String} {member : Address}
  (hmember : view.addressOf name = .ok member)

include hmember

/-- In any memory, a count is the word of its member. -/
theorem readCount_yields {σ : Type} {m : Space σ} {st : σ} {count : UInt64}
    (h : (m.readWord member view.order).Yields st count st) :
    (CountedString.readCount m view name).Yields st count.toNat st := by
  unfold CountedString.readCount
  rw [hmember, Access.liftM_ok_bind, h.bind_iff]
  exact Access.yields_pure.mpr ⟨rfl, rfl⟩

theorem readCount_yields_iff {count : Nat} :
    (CountedString.readCount (Buffer.space p s) view name).Yields b count b' ↔
      b' = b ∧ b.HoldsCount p view.order member.toNat count := by
  unfold CountedString.readCount
  simp only [hmember, Access.yields_bind, Access.yields_liftM, Except.ok.injEq,
    Buffer.toPort_space, Access.yields_pure]
  constructor
  · rintro ⟨_, _, ⟨rfl, rfl⟩, value, _, hread, rfl, rfl⟩
    obtain ⟨rfl, hword⟩ := Buffer.readWord_yields_iff.mp hread
    exact ⟨rfl, hword.count⟩
  · rintro ⟨rfl, hcount⟩
    exact ⟨_, _, ⟨rfl, rfl⟩, _, _, Buffer.readWord_yields_iff.mpr ⟨rfl, hcount.word⟩,
      toNat_ofNat_of_lt hcount.lt, rfl⟩

theorem writeCount_eq (count : Nat) :
    CountedString.writeCount (Buffer.space p s) view name count =
      (Buffer.port p).writeWord member (UInt64.ofNat count) view.order := by
  unfold CountedString.writeCount
  rw [hmember]
  rfl

theorem writeCount_yields_iff {count : Nat} {u : Unit} :
    (CountedString.writeCount (Buffer.space p s) view name count).Yields b u b' ↔
      (UInt64.ofNat count).toNat < 256 ^ p.pointerSize ∧ b.Mapped member.toNat p.pointerSize ∧
        b' = b.store member.toNat (Buffer.wordBytes p view.order (UInt64.ofNat count)) := by
  rw [writeCount_eq hmember]
  exact Buffer.writeWord_yields_iff

end Member

end CompositeView

/-! ### Storing words and texts -/

namespace Buffer

variable {p : Platform} {order : ByteOrder} {b : Buffer} {text : String} {first : Nat}

/-- A range of as many bytes as a text and its terminator shows that its size is a number. -/
theorem size_lt_of_mapped (hm : b.Mapped first (Utf8.size text + 1)) :
    Utf8.size text + 1 < wordLimit := by
  have h₁ := hm.base_le
  have h₂ := hm.inside
  omega

theorem keeps_storeWord (hm : b.Mapped first p.pointerSize) (value : UInt64) :
    b.Keeps (b.store first (wordBytes p order value))
      (Within first p.pointerSize) := by
  have hlen := length_wordBytes p order value
  refine keeps_store (by rwa [hlen]) fun x hx => ?_
  rwa [hlen] at hx

theorem keeps_storeText (hm : b.Mapped first (Utf8.size text + 1)) :
    b.Keeps (b.store first (withTerminator text))
      (Within first (Utf8.size text + 1)) := by
  have hlen := length_withTerminator text
  refine keeps_store (by rwa [hlen]) fun x hx => ?_
  rwa [hlen] at hx

theorem holds_storeText (hm : b.Mapped first (Utf8.size text + 1)) :
    (b.store first (withTerminator text)).Holds first (withTerminator text) :=
  Mapped.holds_store (by rwa [length_withTerminator])

end Buffer

end TypedMemory
