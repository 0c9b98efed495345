import TypedMemory.Proofs.Buffer.Effects
import TypedMemory.Proofs.StringObject.Counted
import TypedMemory.Proofs.StringObject.Short

/-!
# Requests for blocks

Which blocks a write to a string object asks for is settled by what the object holds before, so it
is the same for every memory and every allocator.  `Port.Notes` is all that has to be known of a
memory: there is a list of the sizes that were asked for, to which only requests add.  A write
asks for at most one block, and if it does so, then before it changes anything (`Asks`).

* `ShortString.asks_write`, `CountedString.asks_write`: when a write asks, and for how much.
* `requests_of_writes`: the same for buffers, with their own allocator and with any other.
-/

namespace TypedMemory

open Access StringObject

variable {σ α β : Type}

/-! ### Memories with a list of requests -/

/-- In each state, `noted` is the list of the sizes that were asked for. -/
structure Port.Notes (port : Port σ) (noted : σ → List Nat) : Prop where
  readBytes : ∀ a n, Leaves noted (port.readBytes a n)
  writeBytes : ∀ a data, Leaves noted (port.writeBytes a data)
  allocate : ∀ n st, n ≠ 0 → noted (eval (port.allocate n) st).2 = noted st ++ [n]

variable {noted : σ → List Nat}

namespace Port.Notes

variable {m : Space σ} (h : m.toPort.Notes noted)

include h

theorem leaves_writeWord (a : Address) (w : UInt64) (order : ByteOrder) :
    Leaves noted (m.writeWord a w order) := by
  rw [Port.writeWord_eq]
  split
  · exact h.writeBytes _ _
  · exact (ReadOnly.throw _).leaves

theorem leaves_writeSignedWord (a : Address) (n : Int) (order : ByteOrder) :
    Leaves noted (m.writeSignedWord a n order) := by
  unfold Port.writeSignedWord Port.writeSigned
  rw [Port.requireScalarSize_eq m.platform.pointerSize_pos m.platform.pointerSize_le, pure_bind]
  split
  · exact h.writeBytes _ _
  · exact (ReadOnly.throw _).leaves

/-- Setting a count in the header of a string, or in the object itself. -/
theorem leaves_writeCount (view : CompositeView) (name : String) (count : Nat) :
    Leaves noted (CountedString.writeCount m view name count) :=
  (ReadOnly.liftM _).leaves.bind fun _ => h.leaves_writeWord _ _ _

end Port.Notes

/-- From `st` on, the access asks for one block or for none, and for a block before it changes
anything. -/
inductive Asks (m : Space σ) (noted : σ → List Nat) (x : Access σ Unit) (st : σ) :
    Option Nat → Prop
  | none {y : Access σ Unit} (heval : eval x st = eval y st) (hleaves : Leaves noted y) :
      Asks m noted x st none
  | block {n : Nat} {rest : Address → Access σ Unit} (hn : n ≠ 0)
      (heval : eval x st = eval (m.allocate n >>= rest) st) (hleaves : ∀ a, Leaves noted (rest a)) :
      Asks m noted x st (some n)

namespace Asks

variable {m : Space σ} {x y : Access σ Unit} {st t : σ} {size? : Option Nat}

theorem of_eval (h : Asks m noted y st size?) (heval : eval x st = eval y st) :
    Asks m noted x st size? := by
  cases h with
  | none hy hleaves => exact .none (heval.trans hy) hleaves
  | block hn hy hleaves => exact .block hn (heval.trans hy) hleaves

/-- A step that only reads can be left out. -/
theorem of_yields {z : Access σ α} {a : α} {f : α → Access σ Unit} (h : Asks m noted (f a) st size?)
    (hz : z.Yields st a st) : Asks m noted (z >>= f) st size? :=
  h.of_eval (hz.eval_bind f)

theorem noted_eq (h : Asks m noted x st size?) (hm : m.toPort.Notes noted) :
    noted (eval x st).2 = noted st ++ size?.toList := by
  cases h with
  | none heval hleaves =>
    rw [heval, Option.toList_none, List.append_nil]
    exact hleaves st
  | @block n rest hn heval hleaves =>
    have hasked := hm.allocate n st hn
    rw [heval, eval_bind]
    rcases hresult : eval (m.allocate n) st with ⟨e | a, t⟩
    · rwa [hresult] at hasked
    · rw [hresult] at hasked
      exact (hleaves a t).trans hasked

/-- A request that is refused ends the access. -/
theorem eval_of_refused {n : Nat} {e : Error} (h : Asks m noted x st (some n))
    (hrefused : eval (m.allocate n) st = (.error e, t)) : eval x st = (.error e, t) := by
  cases h with
  | block hn heval hleaves => rw [heval, eval_bind, hrefused]

end Asks

/-! ### Writes -/

/-- Putting characters into a new block begins with the request for it. -/
theorem ShortString.asks_moveToHeap {m : Space σ} (hm : m.toPort.Notes noted) (string : ShortString)
    (text : String) (st : σ) :
    Asks m noted (do
      string.moveToHeap m (withTerminator text)
      string.writeCount m "length" (Utf8.size text)) st
      (some (powerOfTwo (Utf8.size text + 1))) := by
  unfold moveToHeap
  dsimp only
  rw [length_withTerminator, bind_assoc]
  refine .block (by have := le_powerOfTwo (Utf8.size text + 1); omega) rfl fun heap => ?_
  refine Leaves.bind ?_ fun _ => hm.leaves_writeCount string.object "length" _
  refine (hm.leaves_writeWord _ _ _).bind fun _ => (hm.writeBytes _ _).bind fun _ => ?_
  exact hm.leaves_writeCount string.object "capacity" _

theorem ShortString.asks_write {m : Space σ} (hm : m.toPort.Notes noted) {a : Address}
    {order : ByteOrder} {text : String} {st : σ} {capacity heap : UInt64}
    (hcapacity : (m.readWord (a.move (16 + m.platform.pointerSize : Nat)) order).Yields st capacity
      st)
    (hheap : (m.readWord a order).Yields st heap st) :
    Asks m noted (write m a text order) st
      (if (capacity.toNat < Utf8.size text ∧ 16 ≤ Utf8.size text) ∨
          (Utf8.size text ≤ capacity.toNat ∧ 16 ≤ capacity.toNat ∧ heap = 0) then
        some (powerOfTwo (Utf8.size text + 1)) else none) := by
  have hread : ((located m.platform a order).readCount m "capacity").Yields st capacity.toNat st :=
    CompositeView.readCount_yields addressOf_capacity hcapacity
  have hheap' : ((located m.platform a order).heapAddress m).Yields st heap st := hheap
  have hinline : Builtin.inlineCapacity = 16 := rfl
  have hcount : ∀ name count,
      Leaves noted ((located m.platform a order).writeCount m name count) :=
    fun name count => hm.leaves_writeCount _ name count
  have hmove := asks_moveToHeap hm (located m.platform a order) text st
  unfold write
  rw [locate_eq, liftM_ok_bind]
  refine Asks.of_yields ?_ hread
  dsimp only
  by_cases hfits : Utf8.size text ≤ capacity.toNat
  · rw [if_pos hfits]
    by_cases hsmall : capacity.toNat < Builtin.inlineCapacity
    · rw [if_pos hsmall, if_neg (by omega)]
      exact .none rfl ((hm.writeBytes _ _).bind fun _ => hcount _ _)
    · rw [if_neg hsmall]
      refine Asks.of_yields ?_ hheap'
      by_cases hnull : heap = 0
      · rw [if_pos hnull, if_pos (Or.inr ⟨hfits, by omega, hnull⟩)]
        exact hmove
      · rw [if_neg hnull, if_neg (by simp only [hnull, and_false, or_false]; omega)]
        exact .none rfl ((hm.writeBytes _ _).bind fun _ => hcount _ _)
  · rw [if_neg hfits]
    by_cases hshort : Utf8.size text < Builtin.inlineCapacity
    · rw [if_pos hshort, if_neg (by omega)]
      refine .none rfl ((hm.writeBytes _ _).bind fun _ => ?_)
      exact (hcount _ _).bind fun _ => hcount _ _
    · rw [if_neg hshort, if_pos (Or.inl (by omega))]
      exact hmove

/-- A text for a new block begins with the request for this. -/
theorem CountedString.asks_newBlock {m : Space σ} (hm : m.toPort.Notes noted) (a : Address)
    (order : ByteOrder) (text : String) (references : Int) (st : σ) :
    Asks m noted (do
      let header ← moveToBlock m (slotAt a order) (withTerminator text) references
      writeCount m header "length" (Utf8.size text)
      let content ← liftM (header.addressOf "content")
      m.writeBytes content (withTerminator text)) st
      (some (blockSize m.platform text)) := by
  unfold moveToBlock
  rw [layout_countedStringHeader_eq, liftM_ok_bind]
  dsimp only
  rw [start_headerLayout, length_withTerminator, ← blockSize]
  simp only [bind_assoc, pure_bind]
  refine .block (by have := le_blockSize m.platform text; omega) rfl fun block => ?_
  refine (hm.leaves_writeWord _ _ _).bind fun _ => ?_
  refine (hm.leaves_writeCount _ _ _).bind fun _ => ?_
  refine Leaves.bind ((ReadOnly.liftM _).leaves.bind fun _ => hm.leaves_writeSignedWord _ _ _)
    fun _ => ?_
  refine (hm.leaves_writeCount _ _ _).bind fun _ => ?_
  exact (ReadOnly.liftM _).leaves.bind fun _ => hm.writeBytes _ _

theorem CountedString.asks_write {m : Space σ} (hm : m.toPort.Notes noted) {a : Address}
    {order : ByteOrder} {text : String} {st : σ} {target : Address} {capacity : UInt64}
    {references : Int} (htarget : (m.readWord a order).Yields st target st)
    (hcapacity : target ≠ 0 →
      (m.readWord (target.move (-((3 * m.platform.pointerSize : Nat) : Int))) order).Yields st
        capacity st)
    (hreferences : target ≠ 0 →
      (m.readSignedWord (target.move (-(m.platform.pointerSize : Int))) order).Yields st
        references st) :
    Asks m noted (write m a text order) st
      (if target = 0 ∨ capacity.toNat < Utf8.size text then
        some (blockSize m.platform text) else none) := by
  unfold write
  refine Asks.of_yields ?_ (locate_yields htarget)
  by_cases hnull : target = 0
  · rw [if_pos hnull, if_pos (Or.inl hnull)]
    exact asks_newBlock hm a order text 0 st
  rw [if_neg hnull]
  dsimp only
  have hread : (readCount m (headerAt m.platform target order) "capacity").Yields st
      capacity.toNat st :=
    CompositeView.readCount_yields addressOf_capacity (hcapacity hnull)
  have hread' : (readReferences m (headerAt m.platform target order)).Yields st references st := by
    unfold readReferences
    rw [addressOf_references, liftM_ok_bind]
    exact hreferences hnull
  refine Asks.of_yields (Asks.of_yields ?_ hread') hread
  by_cases hfits : Utf8.size text ≤ capacity.toNat
  · rw [if_pos hfits, pure_bind, if_neg (by simp only [hnull, false_or]; omega)]
    refine .none rfl ((hm.leaves_writeCount _ _ _).bind fun _ => ?_)
    exact (ReadOnly.liftM _).leaves.bind fun _ => hm.writeBytes _ _
  · rw [if_neg hfits, if_pos (Or.inr (by omega))]
    exact asks_newBlock hm a order text references st

/-! ### Buffers -/

namespace Buffer

variable {p : Platform} {s : Schema} {order : ByteOrder} {a : Address} {b : Buffer}
  {grant : Nat → Access Buffer Address} {asked : List Nat}

/-- The memory of a process on `p` of which each request is put on a list and then left to
`grant`. -/
def notingSpace (p : Platform) (s : Schema) (grant : Nat → Access Buffer Address) :
    Space (Buffer × List Nat) where
  platform := p
  schema := s
  readBytes a n := (readBytes a n).onFirst
  writeBytes a data := (writeBytes a data).onFirst
  allocate n := do
    modify fun (b, asked) => (b, asked ++ [n])
    (grant n).onFirst

theorem eval_allocate_notingSpace (n : Nat) :
    eval ((notingSpace p s grant).allocate n) (b, asked) =
      ((eval (grant n) b).1, ((eval (grant n) b).2, asked ++ [n])) := rfl

theorem notes_notingSpace : (notingSpace p s grant).toPort.Notes Prod.snd :=
  ⟨fun _ _ _ => rfl, fun _ _ _ => rfl, fun _ _ _ => rfl⟩

/-- A buffer with its own allocator has the list of its blocks. -/
theorem notes_space : (space p s).toPort.Notes fun b => b.allocations.map Allocation.size := by
  refine ⟨fun a n b => ?_, fun a data b => ?_, fun n b hn => ?_⟩
  · change (eval (readBytes a n) b).2.allocations.map _ = _
    rw [readOnly_readBytes]
  · change (eval (writeBytes a data) b).2.allocations.map _ = _
    rw [eval_writeBytes]
    split_ifs <;> rfl
  · have hallocate : ((space p s).allocate n).Yields b b.nextBlock (b.grown n) :=
      allocate_yields_iff.mpr ⟨hn, rfl, rfl⟩
    rw [hallocate, allocations_grown, List.map_append]
    rfl

theorem readExactly_notingSpace {n : Nat} {data : Bytes}
    (h : ((port p).readExactly a n).Yields b data b) :
    ((notingSpace p s grant).readExactly a n).Yields (b, asked) data (b, asked) := by
  obtain ⟨-, hlength, hholds⟩ := readExactly_yields_iff.mp h
  have hread : (readBytes a n).Yields b data b := readBytes_yields_iff.mpr ⟨rfl, hlength, hholds⟩
  have hnoting : ((notingSpace p s grant).readBytes a n).Yields (b, asked) data (b, asked) :=
    hread.onFirst asked
  unfold Port.readExactly
  rw [hnoting.bind_iff, if_pos hlength]
  exact yields_pure.mpr ⟨rfl, rfl⟩

theorem decoded_notingSpace {n : Nat} {decode : Bytes → α} {value : α}
    (h : (decode <$> (port p).readExactly a n).Yields b value b) :
    (decode <$> (notingSpace p s grant).readExactly a n).Yields (b, asked) value (b, asked) := by
  obtain ⟨data, hdata, rfl⟩ := yields_map.mp h
  exact yields_map.mpr ⟨data, readExactly_notingSpace hdata, rfl⟩

theorem readWord_notingSpace {value : UInt64} (h : b.HoldsWord p order a.toNat value) :
    ((notingSpace p s grant).readWord a order).Yields (b, asked) value (b, asked) := by
  have hread : ((port p).readUnsigned a p.pointerSize order).Yields b value b :=
    readWord_yields_iff.mpr ⟨rfl, h⟩
  show ((notingSpace p s grant).readUnsigned a p.pointerSize order).Yields _ _ _
  rw [Port.readUnsigned_eq p.pointerSize_pos p.pointerSize_le] at hread ⊢
  exact decoded_notingSpace hread

theorem readSignedWord_notingSpace {n : Int} (h : b.HoldsSigned p order a.toNat n) :
    ((notingSpace p s grant).readSignedWord a order).Yields (b, asked) n (b, asked) := by
  have hread : ((port p).readSigned a p.pointerSize order).Yields b n b :=
    readSignedWord_yields_iff.mpr ⟨rfl, h⟩
  show ((notingSpace p s grant).readSigned a p.pointerSize order).Yields _ _ _
  rw [Port.readSigned_eq p.pointerSize_pos p.pointerSize_le] at hread ⊢
  exact decoded_notingSpace hread

end Buffer

/-! ### Requests of writes to buffers -/

/-- From `b` on, an access that works with every memory asks for a block of this size or for none,
whatever allocator the memory has. -/
structure Requests (access : ∀ {σ : Type}, Space σ → Access σ Unit) (p : Platform) (s : Schema)
    (b : Buffer) (size? : Option Nat) : Prop where
  /-- With the allocator of the buffer, the block is added to the others. -/
  allocations : (eval (access (Buffer.space p s)) b).2.allocations.map Allocation.size =
    b.allocations.map Allocation.size ++ size?.toList
  asked : ∀ grant asked,
    (eval (access (Buffer.notingSpace p s grant)) (b, asked)).2.2 = asked ++ size?.toList
  /-- The error of a request that is refused is the error of the access, and the buffer is as the
  allocator left it. -/
  refused : ∀ grant asked n e b', size? = some n → eval (grant n) b = (.error e, b') →
    eval (access (Buffer.notingSpace p s grant)) (b, asked) = (.error e, (b', asked ++ [n]))

theorem Requests.of_asks {access : ∀ {σ : Type}, Space σ → Access σ Unit} {p : Platform}
    {s : Schema} {b : Buffer} {size? : Option Nat}
    (hspace : Asks (Buffer.space p s) (fun b => b.allocations.map Allocation.size)
      (access (Buffer.space p s)) b size?)
    (hnoting : ∀ grant asked, Asks (Buffer.notingSpace p s grant) Prod.snd
      (access (Buffer.notingSpace p s grant)) (b, asked) size?) :
    Requests access p s b size? := by
  refine ⟨hspace.noted_eq Buffer.notes_space,
    fun grant asked => (hnoting grant asked).noted_eq Buffer.notes_notingSpace, ?_⟩
  rintro grant asked n e b' rfl hrefused
  refine (hnoting grant asked).eval_of_refused ?_
  rw [Buffer.eval_allocate_notingSpace, hrefused]

section Writes

variable {p : Platform} {s : Schema} {order : ByteOrder} {a : Address} {b : Buffer} {text : String}
  {capacity : UInt64}

theorem ShortString.requests_write {heap : Address}
    (hcapacity : b.HoldsWord p order (a.move (16 + p.pointerSize : Nat)).toNat capacity)
    (hheap : b.HoldsWord p order a.toNat heap) :
    Requests (fun m => write m a text order) p s b
      (if (capacity.toNat < Utf8.size text ∧ 16 ≤ Utf8.size text) ∨
          (Utf8.size text ≤ capacity.toNat ∧ 16 ≤ capacity.toNat ∧ heap = 0) then
        some (powerOfTwo (Utf8.size text + 1)) else none) :=
  .of_asks
    (asks_write Buffer.notes_space (Buffer.readWord_yields_iff.mpr ⟨rfl, hcapacity⟩)
      (Buffer.readWord_yields_iff.mpr ⟨rfl, hheap⟩))
    fun _ _ => asks_write Buffer.notes_notingSpace (Buffer.readWord_notingSpace hcapacity)
      (Buffer.readWord_notingSpace hheap)

theorem CountedString.requests_write {target : Address}
    (htarget : b.HoldsWord p order a.toNat target)
    (hcapacity : target ≠ 0 →
      b.HoldsWord p order (target.move (-((3 * p.pointerSize : Nat) : Int))).toNat capacity)
    (hreferences : target ≠ 0 →
      b.Mapped (target.move (-(p.pointerSize : Int))).toNat p.pointerSize) :
    Requests (fun m => write m a text order) p s b
      (if target = 0 ∨ capacity.toNat < Utf8.size text then
        some (blockSize p text) else none) := by
  obtain ⟨references, hsigned⟩ : ∃ references, target ≠ 0 →
      b.HoldsSigned p order (target.move (-(p.pointerSize : Int))).toNat references := by
    by_cases hnull : target = 0
    · exact ⟨0, fun hne => absurd hnull hne⟩
    · obtain ⟨references, hsigned⟩ := (hreferences hnull).exists_holdsSigned order
      exact ⟨references, fun _ => hsigned⟩
  exact .of_asks
    (asks_write Buffer.notes_space (Buffer.readWord_yields_iff.mpr ⟨rfl, htarget⟩)
      (fun hne => Buffer.readWord_yields_iff.mpr ⟨rfl, hcapacity hne⟩)
      fun hne => Buffer.readSignedWord_yields_iff.mpr ⟨rfl, hsigned hne⟩)
    fun _ _ => asks_write Buffer.notes_notingSpace (Buffer.readWord_notingSpace htarget)
      (fun hne => Buffer.readWord_notingSpace (hcapacity hne))
      fun hne => Buffer.readSignedWord_notingSpace (hsigned hne)

end Writes

/-- A write to a string object asks for one block or for none.  What decides are the words that the
object holds: the capacity and the pointer to the characters, which is `heap` or `target`.  The
block has the least power of two as its size that has room for the text with a terminator, and for
counted references also for the header.  A request that is refused leaves nothing behind. -/
theorem requests_of_writes (p : Platform) (s : Schema) (order : ByteOrder) (a : Address)
    (text : String) (b : Buffer) :
    (∀ capacity heap : UInt64,
      b.HoldsWord p order (a.move (16 + p.pointerSize : Nat)).toNat capacity →
      b.HoldsWord p order a.toNat heap →
      ∃ n, IsLeast {size | (∃ k, size = 2 ^ k) ∧ Utf8.size text + 1 ≤ size} n ∧
        Requests (fun m => ShortString.write m a text order) p s b
          (if (capacity.toNat < Utf8.size text ∧ 16 ≤ Utf8.size text) ∨
              (Utf8.size text ≤ capacity.toNat ∧ 16 ≤ capacity.toNat ∧ heap = 0) then
            some n else none)) ∧
    ∀ (target : Address) (capacity : UInt64), b.HoldsWord p order a.toNat target →
      (target ≠ 0 →
        b.HoldsWord p order (target.move (-((3 * p.pointerSize : Nat) : Int))).toNat capacity) →
      (target ≠ 0 → b.Mapped (target.move (-(p.pointerSize : Int))).toNat p.pointerSize) →
      ∃ n, IsLeast
          {size | (∃ k, size = 2 ^ k) ∧ Utf8.size text + 1 + 3 * p.pointerSize ≤ size} n ∧
        Requests (fun m => CountedString.write m a text order) p s b
          (if target = 0 ∨ capacity.toNat < Utf8.size text then some n else none) :=
  ⟨fun _ _ hcapacity hheap =>
      ⟨_, isLeast_powerOfTwo _, ShortString.requests_write hcapacity hheap⟩,
    fun _ _ htarget hcapacity hreferences =>
      ⟨_, isLeast_powerOfTwo _, CountedString.requests_write htarget hcapacity hreferences⟩⟩

/-- At 4096 an object with an inline buffer and without a text, and at 4128 one that points to room
for five characters at 4160. -/
def roomForFive : Buffer :=
  ⟨4096,
    List.replicate 32 0 ++ [0, 0, 0, 0, 0, 0, 16, 64] ++ [0, 0, 0, 0, 0, 0, 0, 5] ++
      List.replicate 22 0, []⟩

/-- Sixteen characters do not fit inline, and six are one too many for the block. -/
theorem requests_roomForFive :
    Requests (fun m => ShortString.write m 4096 "sixteen letters." .big) .host .empty roomForFive
      (some 32) ∧
    Requests (fun m => CountedString.write m 4128 "hello!" .big) .host .empty roomForFive
      (some 32) ∧
    Requests (fun m => CountedString.write m 4128 "hello" .big) .host .empty roomForFive none := by
  have hheld : ∀ a w, ((Buffer.port .host).readWord a .big).Yields roomForFive w roomForFive →
      roomForFive.HoldsWord .host .big a.toNat w :=
    fun a w h => (Buffer.readWord_yields_iff.mp h).2
  have htarget := hheld 4128 4160 (by decide +kernel)
  have hcapacity := hheld ((4160 : Address).move (-24)) 5 (by decide +kernel)
  have hmapped : roomForFive.Mapped ((4160 : Address).move (-8)).toNat 8 :=
    ⟨by decide, by decide, by decide⟩
  obtain ⟨n, hn, hshort⟩ := (requests_of_writes .host .empty .big 4096 "sixteen letters."
    roomForFive).1 0 0 (hheld _ _ (by decide +kernel)) (hheld _ _ (by decide +kernel))
  obtain ⟨n', hn', hlong⟩ := (requests_of_writes .host .empty .big 4128 "hello!"
    roomForFive).2 4160 5 htarget (fun _ => hcapacity) fun _ => hmapped
  obtain ⟨n'', hn'', hfits⟩ := (requests_of_writes .host .empty .big 4128 "hello"
    roomForFive).2 4160 5 htarget (fun _ => hcapacity) fun _ => hmapped
  rw [hn.unique (isLeast_powerOfTwo _)] at hshort
  rw [hn'.unique (isLeast_powerOfTwo _)] at hlong
  exact ⟨hshort, hlong, hfits⟩

end TypedMemory
