import TypedMemory.Port.CString
import TypedMemory.Proofs.Buffer
import TypedMemory.Proofs.Text.Utf8

/-!
# Terminated texts

A text without the character 0 has no byte 0, so the first such byte ends it, whatever lies behind
that byte (`Buffer.takeWhile_of_holds`).  What is read is the text, but not a byte order mark in
front of it: if the text starts with U+FEFF, the bytes of this character are taken for one and left
out (`Port.readCString_text`).
-/

namespace TypedMemory

/-! ### Byte order marks -/

namespace Text

/-- The character of which the bytes are the byte order mark. -/
def mark : Char := '\ufeff'

/-- The text without a byte order mark in front. -/
def withoutMark (text : String) : String :=
  if text.toList.head? = some mark then String.ofList text.toList.tail else text

theorem withoutMark_cons {text : String} {rest : List Char} (h : text.toList = mark :: rest) :
    withoutMark text = String.ofList rest := by
  unfold withoutMark
  rw [h]
  exact if_pos rfl

/-- Without the mark the text is another one. -/
theorem withoutMark_eq_self_iff {text : String} :
    withoutMark text = text ↔ text.toList.head? ≠ some mark := by
  constructor
  · intro h hhead
    obtain ⟨rest, hrest⟩ : ∃ rest, text.toList = mark :: rest :=
      ⟨_, (List.cons_head?_tail hhead).symm⟩
    rw [withoutMark_cons hrest, ← String.toList_inj, String.toList_ofList, hrest] at h
    exact absurd (congrArg List.length h) (Nat.ne_of_lt (Nat.lt_succ_self _))
  · intro h
    exact if_neg h

/-- The bytes of a text do not start with the mark of another encoding, and with that of their own
only where the text starts with this character. -/
theorem decodeMarked_encode (text : String) :
    decodeMarked (Utf8.encode text) = withoutMark text := by
  have hlarge : ∀ b rest, 0xf8 ≤ b.toNat → Utf8.encode text ≠ b :: rest := by
    intro b rest hle hbytes
    have hlt := Utf8.lt_of_mem_encode (hbytes ▸ List.mem_cons_self)
    omega
  unfold decodeMarked
  split
  next rest hbytes =>
    have hscan := Utf8.scan_encode text.toList
    have hmark : Utf8.encode text = String.utf8EncodeChar mark ++ rest := hbytes
    rw [← Utf8.encode, hmark, Utf8.scan_encodeChar] at hscan
    obtain ⟨c, more, hchars, hc, hrest⟩ := List.map_eq_cons_iff.mp hscan.symm
    obtain rfl : c = mark := Option.some.inj hc
    rw [withoutMark_cons hchars]
    exact Utf8.decodeLossy_of_scan hrest.symm
  next hbytes => exact absurd hbytes (hlarge _ _ (by decide))
  next hbytes => exact absurd hbytes (hlarge _ _ (by decide))
  next hother _ _ =>
    rw [Utf8.decodeLossy_encode]
    refine (withoutMark_eq_self_iff.mpr ?_).symm
    intro hhead
    have hbytes : Utf8.encode text =
        String.utf8EncodeChar mark ++ text.toList.tail.flatMap String.utf8EncodeChar := by
      rw [Utf8.encode, ← List.cons_head?_tail hhead]
      rfl
    exact hother _ hbytes

end Text

/-! ### Terminators -/

namespace Buffer

variable {b : Buffer} {data bytes : Bytes} {address : Nat}

/-- The bytes up to the first that is zero, where this is the one behind `data`. -/
theorem takeWhile_of_holds (hbytes : b.Holds address bytes) (hdata : b.Holds address data)
    (hzero : ∀ v ∈ data, v ≠ 0) (hlength : data.length ≤ bytes.length)
    (hend : data.length < bytes.length → b.byte? (address + data.length) = some 0) :
    bytes.takeWhile (· != 0) = data := by
  have hfront : bytes.take data.length = data :=
    (hbytes.take data.length).unique hdata (List.length_take_of_le hlength)
  have hall : ∀ v ∈ data, (v != 0) = true := fun v hv => bne_iff_ne.mpr (hzero v hv)
  rw [← List.take_append_drop data.length bytes, hfront, List.takeWhile_append_of_pos hall]
  rcases Nat.lt_or_ge data.length bytes.length with hlt | hle
  · have hbyte : bytes[data.length] = 0 := by
      have hbyte := hbytes.byte_eq data.length hlt
      rw [hend hlt, List.getElem?_eq_getElem hlt] at hbyte
      exact (Option.some.inj hbyte).symm
    rw [List.drop_eq_getElem_cons hlt, hbyte]
    exact List.append_nil data
  · rw [List.drop_eq_nil_of_le hle]
    exact List.append_nil data

end Buffer

namespace Port

variable {p : Platform} {b : Buffer} {a : Address} {limit : Nat} {text : String}

/-- A text in memory, of all the bytes that may be read or with a zero byte behind it, is read
without a byte order mark in front.  So it is the same text exactly if it starts with none. -/
theorem readCString_text (hmapped : b.Mapped a.toNat limit)
    (htext : b.Holds a.toNat (Utf8.encode text)) (hzero : '\x00' ∉ text.toList)
    (hsize : Utf8.size text ≤ limit)
    (hend : Utf8.size text < limit → b.byte? (a.toNat + Utf8.size text) = some 0) :
    ((Buffer.port p).readCString a limit).Yields b (Text.withoutMark text) b ∧
      (((Buffer.port p).readCString a limit).Yields b text b ↔
        text.toList.head? ≠ some Text.mark) := by
  have hread : ((Buffer.port p).readCString a limit).Yields b (Text.withoutMark text) b := by
    obtain ⟨bytes, rfl, hbytes⟩ := hmapped.exists_holds
    have hcut := Buffer.takeWhile_of_holds hbytes htext
      (fun v hv => Utf8.ne_zero_of_mem_encode hzero hv) hsize hend
    have hall : ((Buffer.port p).readBytes a bytes.length).Yields b bytes b :=
      Buffer.readBytes_yields_iff.mpr ⟨rfl, rfl, hbytes⟩
    rw [readCString, hall.bind_iff, hcut, Text.decodeMarked_encode]
    exact Access.yields_pure.mpr ⟨rfl, rfl⟩
  refine ⟨hread, ?_⟩
  rw [← Text.withoutMark_eq_self_iff]
  constructor
  · intro h
    exact (hread.unique h).1
  · intro h
    rwa [h] at hread

/-- The bytes of the mark and of two letters, a zero byte and another one. -/
def markedBuffer : Buffer :=
  ⟨4096, [0xef, 0xbb, 0xbf, 0x68, 0x69, 0x00, 0xff], []⟩

theorem holds_markedBuffer :
    markedBuffer.Holds (4096 : Address).toNat (Utf8.encode "\ufeffhi") := by
  have hread : (Buffer.readBytes 4096 5).Yields markedBuffer (Utf8.encode "\ufeffhi")
      markedBuffer := by
    decide +kernel
  exact (Buffer.readBytes_yields_iff.mp hread).2.2

/-- The letters are read with and without the mark in front of them. -/
theorem readCString_text_markedBuffer :
    ((Buffer.port .host).readCString 4096 7).Yields markedBuffer "hi" markedBuffer ∧
      ((Buffer.port .host).readCString 4099 4).Yields markedBuffer "hi" markedBuffer := by
  have hall : markedBuffer.Mapped (4096 : Address).toNat 7 := ⟨by decide, by decide, by decide⟩
  have hrest : markedBuffer.Mapped (4099 : Address).toNat 4 := ⟨by decide, by decide, by decide⟩
  have hletters : markedBuffer.Holds (4099 : Address).toNat (Utf8.encode "hi") :=
    holds_markedBuffer.part 3 2 (by decide)
  constructor
  · have hread := readCString_text (p := .host) hall holds_markedBuffer (by decide) (by decide)
      fun _ => by decide +kernel
    have hmark : Text.withoutMark "\ufeffhi" = "hi" := by decide +kernel
    rw [hmark] at hread
    exact hread.1
  · have hread := readCString_text (p := .host) hrest hletters (by decide) (by decide)
      fun _ => by decide +kernel
    exact hread.2.mpr (by decide)

/-- A text that starts with U+FEFF is not read as it is. -/
theorem not_readCString_markedBuffer :
    ¬ ∀ (p : Platform) (b : Buffer) (a : Address) (limit : Nat) (text : String),
      b.Mapped a.toNat limit → b.Holds a.toNat (Utf8.encode text) → '\x00' ∉ text.toList →
        Utf8.size text ≤ limit →
          (Utf8.size text < limit → b.byte? (a.toNat + Utf8.size text) = some 0) →
            ((Buffer.port p).readCString a limit).Yields b text b := by
  intro h
  have hsame := h .host markedBuffer 4096 7 "\ufeffhi" ⟨by decide, by decide, by decide⟩
    holds_markedBuffer (by decide) (by decide) fun _ => by decide +kernel
  have hletters : ((Buffer.port .host).readCString 4096 7).Yields markedBuffer "hi"
      markedBuffer := by
    decide +kernel
  exact absurd (hsame.unique hletters).1 (by decide)

end Port

end TypedMemory
