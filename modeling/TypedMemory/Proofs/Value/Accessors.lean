import TypedMemory.Port.Restricted
import TypedMemory.Proofs.Value.Scalar

/-!
# Accessors of integers

An integer is read at a fixed width (`Port.readInteger`), by the number of its bytes
(`Port.readNumber`) and as a scalar of some kind (`ScalarKind.read`), and it is written in
as many ways.  `Port.accessors_agree`: over any port all of them read and store the same
number, or fail alike.
-/

namespace TypedMemory

variable {σ : Type} {port : Port σ} {address : Address} {order : ByteOrder}

/-- A type that is as wide as the bytes takes their number as it is. -/
theorem Port.map_wrap_readNumber {t : IntType} {size : Nat} (hpos : 0 < size)
    (hwider : size ≤ t.size) :
    (fun n => (n.type, n.value)) <$> Integer.wrap t <$>
        port.readNumber t.isSigned address size order =
      (t, ·) <$> port.readNumber t.isSigned address size order := by
  rw [readNumber_eq hpos (hwider.trans t.size_le), Functor.map_map, Functor.map_map,
    Functor.map_map]
  refine map_readExactly_congr fun data hlength => ?_
  have hfits := fitsBytes_numberOf t.isSigned
    ((length_arrange (order.isBigEndian port.platform) data).trans hlength)
  exact congrArg (t, ·) (IntType.reduce_eq_self (hfits.mono hwider))

namespace ScalarKind

variable {kind : ScalarKind} {n : Integer}

/-- The accessor of a kind stores a number in as many bytes as the kind has. -/
theorem writeInt_eq (ht : kind.intType? = some n.type) :
    kind.writeInt port address n order =
      port.writeNumber kind.isSigned address (kind.sizeOn port.platform) n.value order := by
  obtain ⟨hsigned, -, hfixed⟩ := intType?_spec ht port.platform
  unfold writeInt
  cases hsized : kind.isPlatformSized with
  | true => rfl
  | false => rw [if_neg Bool.false_ne_true, Port.writeInteger_eq, hfixed hsized, hsigned]

/-- A value of the type of a kind is stored as by the accessor of the kind. -/
theorem write_int_eq (ht : kind.intType? = some n.type) :
    kind.write port address (.int n) order = kind.writeInt port address n order := by
  have hfits := n.fits
  rw [← (intType?_spec ht port.platform).1] at hfits
  rw [write_int_eq_writeNumber ht, writeNumber_eq, writeInt_eq ht,
    Port.writeNumber_eq (kind.sizeOn_pos _) (kind.sizeOn_le _) (hfits.mono n.type.size_le)]

end ScalarKind

/-- Over any port, all ways to read an integer give the same number or fail in the same way, and
all ways to write one store the same bytes or fail in the same way. -/
theorem Port.accessors_agree {σ : Type} (port : Port σ) (address : Address) (order : ByteOrder) :
    (∀ t : IntType, (fun n => (n.type, n.value)) <$> port.readInteger t address order =
      (t, ·) <$> port.readNumber t.isSigned address t.size order) ∧
    (∀ n : Integer, port.writeInteger address n order =
      port.writeNumber n.type.isSigned address n.type.size n.value order) ∧
    ∀ (kind : ScalarKind) (t : IntType), kind.intType? = some t →
      (∃ read : Access σ Integer, kind.read port address order = .int <$> read ∧
        (fun n => (n.type, n.value)) <$> read =
          (t, ·) <$> port.readNumber kind.isSigned address (kind.sizeOn port.platform) order) ∧
      ∀ n : Integer, n.type = t →
        kind.write port address (.int n) order = kind.writeInt port address n order ∧
        kind.writeInt port address n order =
          port.writeNumber kind.isSigned address (kind.sizeOn port.platform) n.value order := by
  refine ⟨fun t => ?_, fun n => port.writeInteger_eq n, fun kind t ht => ⟨?_, ?_⟩⟩
  · rw [port.readInteger_eq]
    exact map_wrap_readNumber t.size_pos le_rfl
  · obtain ⟨hsigned, hwider, -⟩ := ScalarKind.intType?_spec ht port.platform
    refine ⟨_, ScalarKind.read_eq_readNumber ht, ?_⟩
    rw [hsigned]
    exact map_wrap_readNumber (kind.sizeOn_pos port.platform) hwider
  · rintro n rfl
    exact ⟨ScalarKind.write_int_eq ht, ScalarKind.writeInt_eq ht⟩

/-- A port that gives three bytes at most falls short of an `int` as it falls short of four bytes,
and stores it as four bytes. -/
theorem Port.accessors_agree_limitReads :
    let port := (Buffer.port .host).limitReads 3
    ScalarKind.int.intType? = some .i32 ∧
    (∃ read, ScalarKind.int.read port 4096 .big = .int <$> read ∧
      Access.eval ((fun n : Integer => (n.type, n.value)) <$> read) (Buffer.zeroed 4096 4) =
        (.error (.memoryAccess 4096 4 (.incomplete 3)), Buffer.zeroed 4096 4)) ∧
    (ScalarKind.int.write port 4096 (.int (.wrap .i32 (-2))) .big).Yields (.zeroed 4096 4) ()
      ⟨4096, [255, 255, 255, 254], []⟩ := by
  intro port
  have hagree := (port.accessors_agree 4096 .big).2.2 .int .i32 rfl
  obtain ⟨⟨read, hread, hnumber⟩, hwrite⟩ := hagree
  obtain ⟨haccessor, hgeneric⟩ := hwrite (.wrap .i32 (-2)) rfl
  refine ⟨rfl, ⟨read, hread, ?_⟩, ?_⟩
  · rw [hnumber]
    decide +kernel
  · rw [haccessor, hgeneric]
    decide +kernel

end TypedMemory
