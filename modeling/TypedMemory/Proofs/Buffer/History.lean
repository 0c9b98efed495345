import Mathlib.Data.List.Pairwise
import TypedMemory.Proofs.Buffer.Effects

/-!
# Histories of buffers

Any bytes are written to a buffer and any blocks are reserved in it, in any order, and a
call may fail.  `Buffer.Entry` is a call with its answer, so that what becomes of the
buffer can be told from the calls and their answers alone:

* `getD_byte?_serve`: one call, and what it does to a byte;
* `Ordered.serve`: one call, and where its block goes;
* `remembers_after`: all calls of a history.
-/

namespace TypedMemory

open Access

namespace Buffer

/-- A call that may change a buffer. -/
inductive Call
  | write (address : Address) (data : Bytes)
  | allocate (size : Nat)
  deriving DecidableEq, Repr

/-- The address of the block that is reserved, and nothing for a write. -/
def Call.run : Call → Access Buffer (Option Address)
  | write address data => do
    writeBytes address data
    return none
  | allocate size => some <$> Buffer.allocate size

/-- A call with its answer. -/
structure Entry where
  call : Call
  answer : Except Error (Option Address)
  deriving DecidableEq

/-- The byte that the call put at an address, if it succeeded. -/
def Entry.byte? (e : Entry) (x : Nat) : Option UInt8 :=
  match e.call, e.answer with
  | .write address data, .ok _ =>
    if address.toNat ≤ x then data[x - address.toNat]? else none
  | _, _ => none

/-- The block that the call reserved, if it succeeded. -/
def Entry.block? (e : Entry) : Option Allocation :=
  match e.call, e.answer with
  | .allocate size, .ok (some address) => some ⟨address, size⟩
  | _, _ => none

/-- The answer to a call. -/
def answer (b : Buffer) (call : Call) : Entry := ⟨call, (eval call.run b).1⟩

/-- The buffer after a call. -/
def serve (b : Buffer) (call : Call) : Buffer := (eval call.run b).2

/-- The buffer after all calls of a history. -/
def after (b : Buffer) (calls : List Call) : Buffer := calls.foldl serve b

/-- The calls of a history with their answers, the first one first. -/
def log (b : Buffer) : List Call → List Entry
  | [] => []
  | call :: rest => b.answer call :: log (b.serve call) rest

/-- The byte that was last put at an address. -/
def lastByte? (entries : List Entry) (x : Nat) : Option UInt8 :=
  (entries.filterMap (·.byte? x)).getLast?

variable {b b' : Buffer} {call : Call} {calls : List Call}
  {first x : Nat}

@[simp] theorem after_nil (b : Buffer) : b.after [] = b := rfl

@[simp] theorem after_cons (b : Buffer) (call : Call) (rest : List Call) :
    b.after (call :: rest) = (b.serve call).after rest := rfl

theorem lastByte?_cons (e : Entry) (rest : List Entry) (x : Nat) :
    lastByte? (e :: rest) x = (lastByte? rest x).or (e.byte? x) := by
  unfold lastByte?
  rw [List.filterMap_cons]
  cases e.byte? x with
  | none => simp
  | some v =>
    simp only [List.getLast?_cons]
    cases (rest.filterMap (·.byte? x)).getLast? <;> rfl

/-! ### One call -/

theorem Call.run_yields {result : Option Address} (h : call.run.Yields b result b') :
    (∃ address data, call = .write address data ∧ b.Mapped address.toNat data.length ∧
      result = none ∧ b' = b.store address.toNat data) ∨
    ∃ size, call = .allocate size ∧ size ≠ 0 ∧ result = some b.nextBlock ∧ b' = b.grown size := by
  cases call with
  | write address data =>
    obtain ⟨_, t, hwrite, hresult⟩ := yields_bind.mp h
    obtain ⟨hmapped, rfl⟩ := writeBytes_yields_iff.mp hwrite
    obtain ⟨rfl, rfl⟩ := yields_pure.mp hresult
    exact Or.inl ⟨address, data, rfl, hmapped, rfl, rfl⟩
  | allocate size =>
    obtain ⟨a, hallocate, rfl⟩ := yields_map.mp h
    obtain ⟨hsize, rfl, rfl⟩ := allocate_yields_iff.mp hallocate
    exact Or.inr ⟨size, rfl, hsize, rfl, rfl⟩

/-- A call that fails changes nothing. -/
theorem Call.eq_of_fails (h : call.run.Fails b b') : b' = b := by
  cases call with
  | write address data =>
    rcases fails_bind.mp h with hwrite | ⟨_, t, -, hresult⟩
    · exact (writeBytes_fails hwrite).2
    · exact absurd hresult not_fails_pure
  | allocate size =>
    by_cases hsize : size = 0
    · subst hsize
      obtain ⟨e, he⟩ := h
      exact (congrArg Prod.snd he).symm
    · have hyields : (Call.allocate size).run.Yields b (some b.nextBlock) (b.grown size) :=
        yields_map.mpr ⟨_, allocate_yields_iff.mpr ⟨hsize, rfl, rfl⟩, rfl⟩
      exact absurd h hyields.not_fails

/-- What a call can do. -/
theorem serve_cases (b : Buffer) (call : Call) :
    (∃ address data, b.Mapped address.toNat data.length ∧
      b.answer call = ⟨.write address data, .ok none⟩ ∧
      b.serve call = b.store address.toNat data) ∨
    (∃ size, size ≠ 0 ∧ b.answer call = ⟨.allocate size, .ok (some b.nextBlock)⟩ ∧
      b.serve call = b.grown size) ∨
    (∃ e, b.answer call = ⟨call, .error e⟩) ∧ b.serve call = b := by
  rcases yields_or_fails call.run b with ⟨result, t, h⟩ | ⟨t, h⟩
  · have hanswer : b.answer call = ⟨call, .ok result⟩ := by rw [answer, h]
    have hserve : b.serve call = t := congrArg Prod.snd h
    rcases Call.run_yields h with
      ⟨address, data, rfl, hmapped, rfl, rfl⟩ | ⟨size, rfl, hsize, rfl, rfl⟩
    · exact Or.inl ⟨address, data, hmapped, hanswer, hserve⟩
    · exact Or.inr (Or.inl ⟨size, hsize, hanswer, hserve⟩)
  · obtain rfl := Call.eq_of_fails h
    obtain ⟨e, he⟩ := h
    exact Or.inr (Or.inr ⟨⟨e, by rw [answer, he]⟩, congrArg Prod.snd he⟩)

theorem keeps_region_serve (b : Buffer) (call : Call) :
    (b.serve call).base = b.base ∧ b.limit ≤ (b.serve call).limit := by
  rcases b.serve_cases call with ⟨address, data, hmapped, -, hb⟩ | ⟨size, -, -, hb⟩ | ⟨-, hb⟩
  · rw [hb]
    exact ⟨rfl, (limit_store hmapped).ge⟩
  · rw [hb]
    exact ⟨rfl, limit_le_limit_grown b size⟩
  · rw [hb]
    exact ⟨rfl, le_rfl⟩

theorem length_le_serve (b : Buffer) (call : Call) :
    b.memory.length ≤ (b.serve call).memory.length := by
  obtain ⟨hbase, hlimit⟩ := b.keeps_region_serve call
  unfold limit at hlimit
  rw [hbase] at hlimit
  omega

theorem byte?_of_limit_le (h : b.limit ≤ x) : b.byte? x = none := by
  unfold byte?
  unfold limit at h
  split
  · exact List.getElem?_eq_none (by omega)
  · rfl

/-- After a call an address has the byte that the call put there.  If it put none it has the
byte that it had, and zero if it had none. -/
theorem getD_byte?_serve (b : Buffer) (call : Call) (x : Nat) :
    ((b.serve call).byte? x).getD 0 = ((b.answer call).byte? x).getD ((b.byte? x).getD 0) := by
  rcases b.serve_cases call with
    ⟨address, data, hmapped, hanswer, hb⟩ | ⟨size, -, hanswer, hb⟩ | ⟨⟨e, hanswer⟩, hb⟩
  · rw [hanswer, hb, byte?_store hmapped]
    show _ = (if address.toNat ≤ x then data[x - address.toNat]? else none).getD _
    by_cases hlow : address.toNat ≤ x
    · by_cases hhigh : x < address.toNat + data.length
      · rw [if_pos ⟨hlow, hhigh⟩, if_pos hlow, List.getElem?_eq_getElem (by omega)]
        rfl
      · rw [if_neg (fun h => hhigh h.2), if_pos hlow, List.getElem?_eq_none (by omega)]
        rfl
    · rw [if_neg (fun h => hlow h.1), if_neg hlow]
      rfl
  · rw [hanswer, hb, byte?_grown]
    show _ = (b.byte? x).getD 0
    split
    next hnew =>
      rw [byte?_of_limit_le hnew.1]
      rfl
    next => rfl
  · rw [hanswer, hb]
    cases call <;> rfl

/-! ### Blocks -/

/-- The blocks of a buffer lie one behind the other, between an address and the end. -/
structure Ordered (first : Nat) (b : Buffer) : Prop where
  first_le : first ≤ b.limit
  pairwise : b.allocations.Pairwise fun k l => k.address.toNat + k.size ≤ l.address.toNat
  le_address : ∀ k ∈ b.allocations, first ≤ k.address.toNat
  le_limit : ∀ k ∈ b.allocations, k.address.toNat + k.size ≤ b.limit

/-- A buffer in which nothing was reserved yet. -/
theorem ordered_of_allocations_eq (h : b.allocations = []) : Ordered b.limit b := by
  refine ⟨le_rfl, ?_, ?_, ?_⟩ <;> rw [h]
  · exact .nil
  · exact nofun
  · exact nofun

theorem allocations_serve (b : Buffer) (call : Call) :
    (b.serve call).allocations = b.allocations ++ (b.answer call).block?.toList := by
  rcases b.serve_cases call with
    ⟨address, data, -, hanswer, hb⟩ | ⟨size, -, hanswer, hb⟩ | ⟨⟨e, hanswer⟩, hb⟩
  · rw [hanswer, hb]
    exact (List.append_nil _).symm
  · rw [hanswer, hb]
    rfl
  · rw [hanswer, hb]
    cases call <;> exact (List.append_nil _).symm

/-- A new block is behind all others. -/
theorem Ordered.serve (h : Ordered first b) (hlimit : (b.serve call).limit ≤ wordLimit) :
    Ordered first (b.serve call) := by
  rcases b.serve_cases call with ⟨address, data, hmapped, -, hb⟩ | ⟨size, hsize, -, hb⟩ | ⟨-, hb⟩
  · rw [hb]
    have hend := limit_store hmapped
    refine ⟨hend.symm ▸ h.first_le, h.pairwise, h.le_address, ?_⟩
    intro k hk
    rw [hend]
    exact h.le_limit k hk
  · rw [hb] at hlimit ⊢
    have hgrows := limit_le_limit_grown b size
    have hround := le_roundUp b.memory.length blockAlignment
    rw [limit_grown] at hlimit
    have hblock := toNat_nextBlock_of_lt (b := b) (by omega)
    have hbehind : b.limit ≤ b.nextBlock.toNat := by
      rw [hblock, limit]
      omega
    refine ⟨h.first_le.trans hgrows, ?_, ?_, ?_⟩
    · rw [allocations_grown, List.pairwise_append]
      refine ⟨h.pairwise, List.pairwise_singleton _ _, ?_⟩
      intro k hk l hl
      obtain rfl := List.mem_singleton.mp hl
      exact (h.le_limit k hk).trans hbehind
    · intro k hk
      rcases List.mem_append.mp hk with hk | hk
      · exact h.le_address k hk
      · obtain rfl := List.mem_singleton.mp hk
        exact h.first_le.trans hbehind
    · intro k hk
      rcases List.mem_append.mp hk with hk | hk
      · exact (h.le_limit k hk).trans hgrows
      · obtain rfl := List.mem_singleton.mp hk
        show b.nextBlock.toNat + size ≤ _
        rw [limit_grown, hblock]
  · rw [hb]
    exact h

/-! ### Histories -/

theorem keeps_region_after (b : Buffer) (calls : List Call) :
    (b.after calls).base = b.base ∧ b.limit ≤ (b.after calls).limit := by
  induction calls generalizing b with
  | nil => exact ⟨rfl, le_rfl⟩
  | cons call rest ih =>
    obtain ⟨hbase, hlimit⟩ := b.keeps_region_serve call
    obtain ⟨hbase', hlimit'⟩ := ih (b.serve call)
    exact ⟨hbase'.trans hbase, hlimit.trans hlimit'⟩

theorem allocations_after (b : Buffer) (calls : List Call) :
    (b.after calls).allocations = b.allocations ++ (b.log calls).filterMap Entry.block? := by
  induction calls generalizing b with
  | nil => exact (List.append_nil _).symm
  | cons call rest ih =>
    rw [after_cons, ih, allocations_serve, List.append_assoc, log, List.filterMap_cons]
    cases (b.answer call).block? <;> rfl

theorem Ordered.after (h : Ordered first b) (hlimit : (b.after calls).limit ≤ wordLimit) :
    Ordered first (b.after calls) := by
  induction calls generalizing b with
  | nil => exact h
  | cons call rest ih =>
    -- the region only grows, so it is within the address space all the time
    have hgrows := ((b.serve call).keeps_region_after rest).2
    exact ih (h.serve (hgrows.trans hlimit)) hlimit

theorem getD_byte?_after (b : Buffer) (calls : List Call) (x : Nat) :
    ((b.after calls).byte? x).getD 0 = (lastByte? (b.log calls) x).getD ((b.byte? x).getD 0) := by
  induction calls generalizing b with
  | nil => rfl
  | cons call rest ih =>
    rw [after_cons, ih, getD_byte?_serve, log, lastByte?_cons]
    cases lastByte? ((b.serve call).log rest) x <;> rfl

/-! ### All of it -/

theorem exists_byte? (hlow : b.base.toNat ≤ x) (hhigh : x < b.limit) : ∃ v, b.byte? x = some v := by
  rw [byte?_of_le hlow]
  unfold limit at hhigh
  exact ⟨_, List.getElem?_eq_getElem (by omega)⟩

theorem mapped_iff (h : b.memory.length < wordLimit) {address length : Nat} :
    b.Mapped address length ↔
      b.base.toNat ≤ address ∧ address - b.base.toNat + length ≤ b.memory.length := by
  constructor
  · rintro ⟨hlow, hhigh, -⟩
    unfold limit at hhigh
    omega
  · rintro ⟨hlow, hhigh⟩
    refine ⟨hlow, ?_, ?_⟩
    · unfold limit
      omega
    · omega

/-- What becomes of the buffer `b` by calls and their answers.  The blocks of `b` lie behind
the address `first`. -/
structure Remembers (first : Nat) (b : Buffer) (entries : List Entry) (c : Buffer) : Prop where
  base_eq : c.base = b.base
  length_le : b.memory.length ≤ c.memory.length
  /-- One more call does not make the region shorter, if that ends in the address space too. -/
  length_le_serve : ∀ call, (c.serve call).limit ≤ wordLimit →
    (c.serve call).memory.length < wordLimit → c.memory.length ≤ (c.serve call).memory.length
  /-- The blocks are recorded in the order of the calls. -/
  allocations_eq : c.allocations = b.allocations ++ entries.filterMap Entry.block?
  ordered : Ordered first c
  /-- A mapped address has the last byte that was put there, or the one that it had at first,
  or zero. -/
  byte_eq : ∀ x, c.base.toNat ≤ x → x < c.limit →
    c.byte? x = some ((lastByte? entries x).getD ((b.byte? x).getD 0))
  /-- A range is read if it is within the region, and otherwise reading fails. -/
  read : ∀ (a : Address) (n : Nat),
    if c.base ≤ a ∧ a.toNat - c.base.toNat + n ≤ c.memory.length then
      ∃ data : Bytes, (readBytes a n).Yields c data c ∧ data.length = n ∧
        ∀ i, i < n → data[i]? = c.byte? (a.toNat + i)
    else (readBytes a n).Fails c c
  /-- One more call that fails changes nothing. -/
  eq_of_fails : ∀ (call : Call) (c' : Buffer), call.run.Fails c c' → c' = c

/-- After any calls to a buffer that ends in the address space, it is as long as before or
longer, its blocks are apart, and its bytes are those that were written last.  Regions only
grow, so it is enough that the last one ends in the address space, with a length that is a
word. -/
theorem remembers_after (hfirst : Ordered first b) (hlimit : (b.after calls).limit ≤ wordLimit)
    (hlength : (b.after calls).memory.length < wordLimit) :
    Remembers first b (b.log calls) (b.after calls) := by
  obtain ⟨hbase, hgrows⟩ := b.keeps_region_after calls
  refine ⟨hbase, ?_, fun call _ _ => (b.after calls).length_le_serve call,
    b.allocations_after calls, hfirst.after hlimit, ?_, ?_, ?_⟩
  · unfold limit at hgrows
    rw [hbase] at hgrows
    omega
  · intro x hlow hhigh
    obtain ⟨v, hv⟩ := exists_byte? hlow hhigh
    have hbyte := b.getD_byte?_after calls x
    rw [hv] at hbyte ⊢
    exact congrArg some hbyte
  · intro a n
    have hmapped : (b.after calls).Mapped a.toNat n ↔ _ := mapped_iff hlength
    rw [← UInt64.le_iff_toNat_le] at hmapped
    split
    next hin =>
      obtain ⟨data, hn, hholds⟩ := (hmapped.mpr hin).exists_holds
      refine ⟨data, readBytes_yields_iff.mpr ⟨rfl, hn, hholds⟩, hn, ?_⟩
      intro i hi
      exact (hholds.byte_eq i (by omega)).symm
    next hout => exact readBytes_fails_iff.mpr ⟨fun hm => hout (hmapped.mp hm), rfl⟩
  · intro call c' h
    exact Call.eq_of_fails h

/-- Calls of which the third and the last fail.  The one before the last two covers a byte
of the first and a part of the gap before the block. -/
def mixedCalls : List Call :=
  [.write 4098 [1, 2, 3], .allocate 3, .write 4090 [9], .write 4100 [4, 5, 6], .allocate 20,
    .allocate 0]

theorem remembers_after_mixedCalls :
    ∃ c, Remembers (zeroed 4096 5).limit (zeroed 4096 5) ((zeroed 4096 5).log mixedCalls) c ∧
      c.allocations = [⟨4112, 3⟩, ⟨4128, 20⟩] ∧ c.byte? 4099 = some 2 ∧ c.byte? 4100 = some 4 ∧
      c.byte? 4103 = some 0 := by
  have hfirst : Ordered (zeroed 4096 5).limit (zeroed 4096 5) := ordered_of_allocations_eq rfl
  have hafter : Remembers (zeroed 4096 5).limit (zeroed 4096 5) ((zeroed 4096 5).log mixedCalls)
      ((zeroed 4096 5).after mixedCalls) :=
    remembers_after hfirst (by decide +kernel) (by decide +kernel)
  refine ⟨_, hafter, ?_, ?_, ?_, ?_⟩
  · rw [hafter.allocations_eq]
    decide +kernel
  · rw [hafter.byte_eq 4099 (by decide) (by decide +kernel)]
    decide +kernel
  · rw [hafter.byte_eq 4100 (by decide) (by decide +kernel)]
    decide +kernel
  · rw [hafter.byte_eq 4103 (by decide) (by decide +kernel)]
    decide +kernel

end Buffer

end TypedMemory
