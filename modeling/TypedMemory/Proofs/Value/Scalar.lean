import TypedMemory.Proofs.Buffer.Word
import TypedMemory.Proofs.Integer
import TypedMemory.Value.Scalar

/-!
# Scalars as bytes

A scalar is written in two steps of which only the second one touches memory, and it
is read in two steps of which only the first one does:

* `write_eq`: `ScalarKind.encode` finds the bytes of a value, or refuses it, and then
  they are stored;
* `read_eq`: the bytes of the scalar are read, and `ScalarKind.decode` tells what they
  stand for.

What is encoded is decoded to the same number (`decode_encode`), and an integer is encoded
in the bytes that it was decoded from (`encode_decode`).
-/

namespace TypedMemory

namespace ScalarKind

variable {σ : Type} {kind : ScalarKind} {p : Platform} {order : ByteOrder} {value : Value}
  {data : Bytes}

/-! ### Widths -/

theorem intSize_cases (p : Platform) : p.intSize = 2 ∨ p.intSize = 4 := by
  unfold Platform.intSize
  split
  · exact Or.inl rfl
  · exact Or.inr rfl

theorem longSize_cases (p : Platform) : p.longSize = 8 ∨ p.longSize = 4 := by
  unfold Platform.longSize
  split
  · exact Or.inl rfl
  · exact Or.inr rfl

theorem sizeOn_pos (kind : ScalarKind) (p : Platform) : 0 < kind.sizeOn p := by
  have hpointer := p.pointerSize_pos
  have hint := intSize_cases p
  have hlong := longSize_cases p
  cases kind <;> simp only [sizeOn] <;> omega

theorem sizeOn_le (kind : ScalarKind) (p : Platform) : kind.sizeOn p ≤ widestScalar := by
  have hpointer := p.pointerSize_le
  have hint := intSize_cases p
  have hlong := longSize_cases p
  unfold widestScalar at *
  cases kind <;> simp only [sizeOn] <;> omega

/-- A kind is read as an integer type that is at least as wide. -/
theorem intType?_spec {t : IntType} (h : kind.intType? = some t) (p : Platform) :
    kind.isSigned = t.isSigned ∧ kind.sizeOn p ≤ t.size ∧
      (kind.isPlatformSized = false → kind.sizeOn p = t.size) := by
  have hpointer := p.pointerSize_le
  have hint := intSize_cases p
  have hlong := longSize_cases p
  unfold widestScalar at hpointer
  cases kind <;> cases h <;> refine ⟨rfl, ?_, fun hfixed => ?_⟩ <;>
    first | rfl | cases hfixed | (simp only [sizeOn, IntType.size]; omega)

/-! ### The two forms -/

/-- The bytes of a value in a scalar of this kind. -/
def encode (kind : ScalarKind) (p : Platform) (order : ByteOrder) (value : Value) :
    Except Error Bytes :=
  let bigEndian := order.isBigEndian p
  match kind.encoding with
  | .bool =>
    match value.asBool? with
    | some flag => .ok (arrange bigEndian (Bytes.ofNat 1 (if flag then 1 else 0)))
    | none => .error (value.mismatch kind.name)
  | .single =>
    match value.asDouble? with
    | some pattern => .ok (arrange bigEndian (Bytes.ofNat 4 (narrow pattern).toNat))
    | none => .error (value.mismatch kind.name)
  | .double =>
    match value.asDouble? with
    | some pattern => .ok (arrange bigEndian (Bytes.ofNat 8 pattern.toNat))
    | none => .error (value.mismatch kind.name)
  | .signed | .unsigned =>
    match value.asInt? with
    | some n =>
      if FitsBytes kind.isSigned (kind.sizeOn p) n then
        .ok (bytesOfWord (UInt64.ofInt n) (kind.sizeOn p) bigEndian)
      else .error (.valueOutOfRange n (kind.sizeOn p))
    | none => .error (value.mismatch kind.name)

/-- The value of the bytes of a scalar of this kind. -/
def decode (kind : ScalarKind) (p : Platform) (order : ByteOrder) (data : Bytes) : Value :=
  let bits := Bytes.toNat (arrange (order.isBigEndian p) data)
  match kind.intType? with
  | some t =>
    .int (Integer.wrap t (if kind.isSigned then Int.bmod bits (256 ^ kind.sizeOn p) else bits))
  | none =>
    match kind.encoding with
    | .single => .single (UInt32.ofNat bits)
    | .double => .double (UInt64.ofNat bits)
    | _ => .bool ((Integer.wrap .u8 bits).value != 0)

theorem decode_ne_pointer (kind : ScalarKind) (p : Platform) (order : ByteOrder) (data : Bytes)
    (slot : PointerSlot) : kind.decode p order data ≠ .pointer slot := by
  unfold decode
  cases kind.intType? with
  | some t => exact nofun
  | none => cases kind.encoding <;> exact nofun

/-! ### Writing -/

section Writing

variable {port : Port σ} {address : Address}

/-- An integer that does not fit the kind is refused with its own number. -/
theorem writeNumber_eq (kind : ScalarKind) (n : Int) :
    kind.writeNumber port address n order =
      if FitsBytes kind.isSigned (kind.sizeOn port.platform) n then
        port.writeBytes address (bytesOfWord (UInt64.ofInt n) (kind.sizeOn port.platform)
          (order.isBigEndian port.platform))
      else throw (.valueOutOfRange n (kind.sizeOn port.platform)) := by
  have hpos := kind.sizeOn_pos port.platform
  have hsize := kind.sizeOn_le port.platform
  -- the two checks of a word are those of the widest integers
  have hwidest : kind.writeNumber port address n order =
      if FitsBytes kind.isSigned widestScalar n then
        port.writeNumber kind.isSigned address (kind.sizeOn port.platform) n order
      else throw (.valueOutOfRange n (kind.sizeOn port.platform)) := by
    unfold writeNumber Port.writeNumber
    cases kind.isSigned with
    | true =>
      have hword := IntType.isSome_ofInt?_iff .i64 n
      cases hn : Integer.ofInt? .i64 n with
      | some _ => exact (if_pos (hword.mp (hn ▸ rfl))).symm
      | none => exact (if_neg fun h => Option.ne_none_iff_isSome.mpr (hword.mpr h) hn).symm
    | false =>
      have hword := IntType.isSome_ofInt?_iff .u64 n
      cases hn : Integer.ofInt? .u64 n with
      | some _ => exact (if_pos (hword.mp (hn ▸ rfl))).symm
      | none => exact (if_neg fun h => Option.ne_none_iff_isSome.mpr (hword.mpr h) hn).symm
  rw [hwidest]
  by_cases hword : FitsBytes kind.isSigned widestScalar n
  · rw [if_pos hword, Port.writeNumber_eq hpos hsize hword]
  · rw [if_neg hword, if_neg fun h => hword (h.mono hsize)]

theorem write_int_eq_writeNumber {t : IntType} (ht : kind.intType? = some t) (n : Integer) :
    kind.write port address (.int n) order = kind.writeNumber port address n.value order := by
  cases kind <;> first | rfl | cases ht

/-- A scalar is written by storing its bytes. -/
theorem write_eq (kind : ScalarKind) (port : Port σ) (address : Address) (value : Value)
    (order : ByteOrder) :
    kind.write port address value order =
      liftM (kind.encode port.platform order value) >>= port.writeBytes address := by
  unfold write encode
  cases kind.encoding with
  | bool =>
    cases value.asBool? with
    | none => rfl
    | some flag => cases flag <;> rfl
  | single =>
    cases value.asDouble? with
    | none => rfl
    | some pattern => rfl
  | double =>
    cases value.asDouble? with
    | none => rfl
    | some pattern => rfl
  | signed | unsigned =>
    cases value.asInt? with
    | none => rfl
    | some n =>
      simp only [writeNumber_eq]
      split <;> rfl

end Writing

/-! ### Reading -/

section Reading

variable {port : Port σ} {address : Address}

theorem readSized_eq (kind : ScalarKind) (t : IntType) :
    kind.readSized port t address order =
      Integer.wrap t <$>
        port.readNumber kind.isSigned address (kind.sizeOn port.platform) order := by
  unfold readSized Port.readNumber
  cases kind.isSigned with
  | true => exact bind_pure_comp _ _
  | false => exact (bind_pure_comp _ _).trans (Functor.map_map _ _ _).symm

/-- Integers of a kind are read as the numbers of its width. -/
theorem read_eq_readNumber {t : IntType} (ht : kind.intType? = some t) :
    kind.read port address order =
      .int <$> Integer.wrap t <$>
        port.readNumber kind.isSigned address (kind.sizeOn port.platform) order := by
  obtain ⟨hsigned, -, hfixed⟩ := intType?_spec ht port.platform
  unfold read
  simp only [ht]
  cases hsized : kind.isPlatformSized with
  | true => rw [if_pos rfl, readSized_eq kind t]
  | false =>
    rw [if_neg Bool.false_ne_true, Port.readInteger_eq, hfixed hsized, hsigned]

/-- A scalar is read by reading its bytes. -/
theorem read_eq (kind : ScalarKind) (port : Port σ) (address : Address) (order : ByteOrder) :
    kind.read port address order =
      kind.decode port.platform order <$>
        port.readExactly address (kind.sizeOn port.platform) := by
  cases ht : kind.intType? with
  | some t =>
    rw [read_eq_readNumber ht, Port.readNumber_eq (kind.sizeOn_pos _) (kind.sizeOn_le _),
      Functor.map_map, Functor.map_map]
    unfold decode
    rw [ht]
    rfl
  | none =>
    -- truth values and floating-point numbers
    unfold read decode
    cases kind <;> cases ht <;>
      simp only [intType?, encoding, Port.readFlag, Port.readSingle, Port.readDouble, Port.readInteger,
        Port.readFixed, bind_pure_comp, Functor.map_map] <;> rfl

/-- The scalar in the bytes of a buffer. -/
theorem read_yields {b : Buffer} (hlength : data.length = kind.sizeOn p)
    (hdata : b.Holds address.toNat data) :
    (kind.read (Buffer.port p) address order).Yields b (kind.decode p order data) b := by
  rw [kind.read_eq]
  exact Access.yields_map.mpr
    ⟨data, Buffer.readExactly_yields_iff.mpr ⟨rfl, hlength, hdata⟩, rfl⟩

end Reading

/-! ### The two forms agree -/

theorem encode_int_eq {t : IntType} (ht : kind.intType? = some t) :
    kind.encode p order value =
      match value.asInt? with
      | some n =>
        if FitsBytes kind.isSigned (kind.sizeOn p) n then
          .ok (bytesOfWord (UInt64.ofInt n) (kind.sizeOn p) (order.isBigEndian p))
        else .error (.valueOutOfRange n (kind.sizeOn p))
      | none => .error (value.mismatch kind.name) := by
  cases kind <;> cases ht <;> rfl

/-- The bytes of an integer. -/
theorem encode_int_eq_ok_iff {t : IntType} (ht : kind.intType? = some t) :
    kind.encode p order value = .ok data ↔
      ∃ n, value.asInt? = some n ∧ FitsBytes kind.isSigned (kind.sizeOn p) n ∧
        data = bytesOfWord (UInt64.ofInt n) (kind.sizeOn p) (order.isBigEndian p) := by
  rw [encode_int_eq ht]
  cases value.asInt? with
  | none => exact ⟨nofun, nofun⟩
  | some n =>
    simp only
    split
    next hfits =>
      constructor
      · rintro ⟨⟩
        exact ⟨n, rfl, hfits, rfl⟩
      · rintro ⟨_, ⟨⟩, -, rfl⟩
        rfl
    next hfits => exact ⟨nofun, fun ⟨_, hn, hin, _⟩ => absurd (Option.some.inj hn ▸ hin) hfits⟩

/-- The byte of a truth value. -/
theorem encode_bool_eq_ok_iff :
    bool.encode p order value = .ok data ↔
      ∃ flag, value.asBool? = some flag ∧
        data = arrange (order.isBigEndian p) (Bytes.ofNat 1 (if flag then 1 else 0)) := by
  unfold encode
  cases value.asBool? with
  | none => exact ⟨nofun, nofun⟩
  | some flag =>
    constructor
    · rintro ⟨⟩
      exact ⟨flag, rfl, rfl⟩
    · rintro ⟨_, ⟨⟩, rfl⟩
      rfl

/-- A value is encoded in as many bytes as a scalar of the kind has. -/
theorem length_encode (h : kind.encode p order value = .ok data) :
    data.length = kind.sizeOn p := by
  cases ht : kind.intType? with
  | some t =>
    obtain ⟨n, -, -, rfl⟩ := (encode_int_eq_ok_iff ht).mp h
    exact length_bytesOfWord (kind.sizeOn_le p) _ _
  | none =>
    cases kind with
    | bool =>
      obtain ⟨flag, -, rfl⟩ := encode_bool_eq_ok_iff.mp h
      rw [length_arrange, Bytes.length_ofNat]
      rfl
    | f32 | f64 | float | double =>
      unfold encode at h
      cases hvalue : value.asDouble? with
      | none => simp only [encoding, hvalue] at h; cases h
      | some pattern =>
        simp only [encoding, hvalue] at h
        cases h
        rw [length_arrange, Bytes.length_ofNat]
        rfl
    | _ => cases ht

/-- The bytes of an integer that fits are decoded to it. -/
theorem decode_bytesOfWord {t : IntType} (ht : kind.intType? = some t) {n : Int}
    (hfits : FitsBytes kind.isSigned (kind.sizeOn p) n) :
    kind.decode p order
      (bytesOfWord (UInt64.ofInt n) (kind.sizeOn p) (order.isBigEndian p)) =
        .int (Integer.wrap t n) := by
  have hnumber := Port.numberOf_bytesOfWord (kind.sizeOn_le p) hfits (order.isBigEndian p)
  unfold decode
  rw [ht]
  exact congrArg (fun n => Value.int (Integer.wrap t n)) hnumber

theorem decode_flag (flag : Bool) :
    bool.decode p order (arrange (order.isBigEndian p) (Bytes.ofNat 1 (if flag then 1 else 0))) =
      .bool flag := by
  unfold decode
  rw [arrange_arrange]
  cases flag <;> rfl

/-- What is encoded is decoded to the same number or truth value. -/
theorem decode_encode (hkind : kind.isFloat = false) (h : kind.encode p order value = .ok data) :
    (kind.decode p order data).asInt? = value.asInt? ∧
      (kind.decode p order data).asBool? = value.asBool? := by
  cases ht : kind.intType? with
  | some t =>
    obtain ⟨n, hn, hfits, rfl⟩ := (encode_int_eq_ok_iff ht).mp h
    obtain ⟨hsigned, hwider, -⟩ := intType?_spec ht p
    have hreduce : t.reduce n = n := IntType.reduce_eq_self (hsigned ▸ hfits.mono hwider)
    cases value with
    | int m =>
      rw [decode_bytesOfWord ht hfits]
      exact ⟨(congrArg some hreduce).trans hn.symm, rfl⟩
    | _ => cases hn
  | none =>
    cases kind with
    | bool =>
      obtain ⟨flag, hflag, rfl⟩ := encode_bool_eq_ok_iff.mp h
      cases value with
      | bool flag' =>
        rw [decode_flag]
        exact ⟨rfl, hflag.symm⟩
      | _ => cases hflag
    | f32 | f64 | float | double => cases hkind
    | _ => cases ht

/-- The value of an integer kind or of `bool` that stands for the same integer or truth value, or
why there is none. -/
def convert (kind : ScalarKind) (p : Platform) (value : Value) : Except Error Value :=
  match kind.intType? with
  | some t =>
    match value.asInt? with
    | some n =>
      if FitsBytes kind.isSigned (kind.sizeOn p) n then .ok (.int (Integer.wrap t n))
      else .error (.valueOutOfRange n (kind.sizeOn p))
    | none => .error (value.mismatch kind.name)
  | none =>
    match value.asBool? with
    | some flag => .ok (.bool flag)
    | none => .error (value.mismatch kind.name)

/-- A value is stored as the one that it is converted to. -/
theorem map_decode_encode (hkind : kind.isFloat = false) :
    (kind.encode p order value).map (kind.decode p order) = kind.convert p value := by
  unfold convert
  cases ht : kind.intType? with
  | some t =>
    rw [encode_int_eq ht]
    cases value.asInt? with
    | none => rfl
    | some n =>
      simp only
      split
      next hfits => exact congrArg Except.ok (decode_bytesOfWord ht hfits)
      next => rfl
  | none =>
    cases kind with
    | bool =>
      unfold encode
      cases value.asBool? with
      | none => rfl
      | some flag => exact congrArg Except.ok (decode_flag flag)
    | f32 | f64 | float | double => cases hkind
    | _ => cases ht

/-- The value that another one is converted to has the same number or truth value. -/
theorem sameNumber_convert (hkind : kind.isFloat = false) {held : Value}
    (h : kind.convert p value = .ok held) :
    held.asInt? = value.asInt? ∧ held.asBool? = value.asBool? := by
  have hstored : (kind.encode p .native value).map (kind.decode p .native) = .ok held :=
    (map_decode_encode hkind).trans h
  obtain ⟨data, hdata, rfl⟩ := map_eq_ok_iff.mp hstored
  exact decode_encode hkind hdata

/-- An integer is encoded in the bytes that it was decoded from, whatever they are. -/
theorem encode_decode {t : IntType} (ht : kind.intType? = some t)
    (hlength : data.length = kind.sizeOn p) :
    kind.encode p order (kind.decode p order data) = .ok data := by
  have hsize := kind.sizeOn_le p
  obtain ⟨hsigned, hwider, -⟩ := intType?_spec ht p
  let n := Port.numberOf kind.isSigned (kind.sizeOn p) (arrange (order.isBigEndian p) data)
  have hfits : FitsBytes kind.isSigned (kind.sizeOn p) n :=
    Port.fitsBytes_numberOf _ ((length_arrange _ data).trans hlength)
  have hdecode : kind.decode p order data = .int (Integer.wrap t n) := by
    unfold decode
    rw [ht]
    rfl
  have hreduce : t.reduce n = n := IntType.reduce_eq_self (hsigned ▸ hfits.mono hwider)
  rw [hdecode]
  refine (encode_int_eq_ok_iff ht).mpr ⟨n, congrArg some hreduce, hfits, ?_⟩
  exact (Port.bytesOfWord_numberOf hsize _ hlength _).symm

end ScalarKind

end TypedMemory
