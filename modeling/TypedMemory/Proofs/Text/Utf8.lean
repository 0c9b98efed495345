import Mathlib.Data.Char
import TypedMemory.Text.Utf8

/-!
# Decoding what was encoded

`Utf8.scan_encodeChar`: between characters, the bytes of a character are read as
that character.  So `Utf8.decode?_encode`: the bytes of a text are read as the text.
No other bytes are read as a text, since a character that is read is the one whose
bytes these are (`Utf8.exists_char_of_scan`, `Utf8.decode?_eq_some_iff`).
-/

namespace TypedMemory.Utf8

theorem toNat_ofNat {n : Nat} (h : n < 256) : (UInt8.ofNat n).toNat = n := by
  rw [UInt8.toNat_ofNat']
  exact Nat.mod_eq_of_lt h

/-- A character is no surrogate and not past the last one. -/
theorem char_range (c : Char) : c.toNat < 0xd800 ∨ 0xdfff < c.toNat ∧ c.toNat < 0x110000 := c.valid

theorem scan_cons (state : Option Partial) (b : UInt8) (rest : Bytes) :
    scan state (b :: rest) = (step state b).1 ++ scan (step state b).2 rest := by
  cases state <;> rw [scan]

/-- A byte between the bounds that does not end the character. -/
theorem step_inside {missing code low high n : Nat} (hn : n < 256) (hlow : low ≤ n)
    (hhigh : n ≤ high) :
    step (some ⟨missing + 2, code, low, high⟩) (UInt8.ofNat n) =
      ([], some ⟨missing + 1, code * 64 + n % 64, 0x80, 0xbf⟩) := by
  simp only [step, toNat_ofNat hn]
  rw [if_pos ⟨hlow, hhigh⟩, if_neg (by omega)]
  rfl

/-- The last byte of a character. -/
theorem step_last {code low high n : Nat} (hn : n < 256) (hlow : low ≤ n) (hhigh : n ≤ high) :
    step (some ⟨1, code, low, high⟩) (UInt8.ofNat n) =
      ([some (Char.ofNat (code * 64 + n % 64))], none) := by
  simp only [step, toNat_ofNat hn]
  rw [if_pos ⟨hlow, hhigh⟩, if_pos (by omega)]

/-! ### The first byte -/

theorem step_one {n : Nat} (h : n < 0x80) :
    step none (UInt8.ofNat n) = ([some (Char.ofNat n)], none) := by
  simp only [step, stepLead, lead, toNat_ofNat (show n < 256 by omega)]
  rw [if_pos h]

theorem step_two {n : Nat} (h₁ : 0xc2 ≤ n) (h₂ : n < 0xe0) :
    step none (UInt8.ofNat n) = ([], some ⟨1, n - 0xc0, 0x80, 0xbf⟩) := by
  simp only [step, stepLead, lead, toNat_ofNat (show n < 256 by omega)]
  rw [if_neg (by omega), if_neg (by omega), if_pos h₂]

theorem step_three {n : Nat} (h₁ : 0xe0 ≤ n) (h₂ : n < 0xf0) :
    step none (UInt8.ofNat n) =
      ([], some ⟨2, n - 0xe0, if n = 0xe0 then 0xa0 else 0x80,
        if n = 0xed then 0x9f else 0xbf⟩) := by
  simp only [step, stepLead, lead, toNat_ofNat (show n < 256 by omega)]
  rw [if_neg (by omega), if_neg (by omega), if_neg (by omega), if_pos h₂]

theorem step_four {n : Nat} (h₁ : 0xf0 ≤ n) (h₂ : n < 0xf5) :
    step none (UInt8.ofNat n) =
      ([], some ⟨3, n - 0xf0, if n = 0xf0 then 0x90 else 0x80,
        if n = 0xf4 then 0x8f else 0xbf⟩) := by
  simp only [step, stepLead, lead, toNat_ofNat (show n < 256 by omega)]
  rw [if_neg (by omega), if_neg (by omega), if_neg (by omega), if_neg (by omega), if_pos h₂]

/-! ### Characters and texts -/

theorem scan_encodeChar (c : Char) (rest : Bytes) :
    scan none (String.utf8EncodeChar c ++ rest) = some c :: scan none rest := by
  have hrange := char_range c
  have hchar : ∀ n, n = c.toNat → Char.ofNat n = c := by
    rintro n rfl
    exact Char.ofNat_toNat c
  have hval : c.val.toNat = c.toNat := rfl
  unfold String.utf8EncodeChar
  simp only [hval]
  split_ifs with h₁ h₂ h₃
  · rw [List.cons_append, List.nil_append, scan_cons, step_one (by omega), hchar _ rfl]
    rfl
  · simp only [List.cons_append, List.nil_append]
    rw [scan_cons, step_two (by omega) (by omega)]
    rw [scan_cons, step_last (by omega) (by omega) (by omega), hchar _ (by omega)]
    rfl
  · simp only [List.cons_append, List.nil_append]
    rw [scan_cons, step_three (by omega) (by omega)]
    rw [scan_cons, step_inside (by omega) (by split <;> omega) (by split <;> omega)]
    rw [scan_cons, step_last (by omega) (by omega) (by omega), hchar _ (by omega)]
    rfl
  · simp only [List.cons_append, List.nil_append]
    rw [scan_cons, step_four (by omega) (by omega)]
    rw [scan_cons, step_inside (by omega) (by split <;> omega) (by split <;> omega)]
    rw [scan_cons, step_inside (by omega) (by omega) (by omega)]
    rw [scan_cons, step_last (by omega) (by omega) (by omega), hchar _ (by omega)]
    rfl

theorem scan_encode (text : List Char) :
    scan none (text.flatMap String.utf8EncodeChar) = text.map some := by
  induction text with
  | nil => rfl
  | cons c rest ih => rw [List.flatMap_cons, scan_encodeChar, ih, List.map_cons]

theorem mapM_id_map_some {α : Type} (items : List α) : (items.map some).mapM id = some items := by
  induction items with
  | nil => rfl
  | cons a rest ih => simp [List.mapM_cons, ih]

/-- The bytes of a text are read as the text. -/
theorem decode?_encode (text : String) : decode? (encode text) = some text := by
  rw [decode?, encode, scan_encode, mapM_id_map_some, Option.map_some, String.ofList_toList]

theorem decodeLossy_of_scan {bytes : Bytes} {cs : List Char} (h : scan none bytes = cs.map some) :
    decodeLossy bytes = String.ofList cs := by
  rw [decodeLossy, h, List.map_map]
  exact congrArg String.ofList (List.map_id cs)

/-- Nothing is replaced in the bytes of a text. -/
theorem decodeLossy_encode (text : String) : decodeLossy (encode text) = text := by
  rw [encode, decodeLossy_of_scan (scan_encode text.toList), String.ofList_toList]

/-- The byte of a character of one byte is its number, and the bytes of all others are large. -/
theorem byte_of_mem_encodeChar {c : Char} {b : UInt8} (h : b ∈ String.utf8EncodeChar c) :
    b.toNat < 0xf8 ∧ (b.toNat = c.toNat ∨ 0x80 ≤ b.toNat) := by
  have hval : c.val.toNat = c.toNat := rfl
  have hbyte : ∀ n < 0xf8, (n = c.toNat ∨ 0x80 ≤ n) → b = UInt8.ofNat n →
      b.toNat < 0xf8 ∧ (b.toNat = c.toNat ∨ 0x80 ≤ b.toNat) := by
    rintro n hlt hn rfl
    rw [toNat_ofNat (by omega)]
    exact ⟨hlt, hn⟩
  unfold String.utf8EncodeChar at h
  simp only [hval] at h
  split_ifs at h <;> simp only [List.mem_cons, List.not_mem_nil, or_false] at h
  · exact hbyte _ (by omega) (by omega) h
  · rcases h with h | h <;> exact hbyte _ (by omega) (by omega) h
  · rcases h with h | h | h <;> exact hbyte _ (by omega) (by omega) h
  · rcases h with h | h | h | h <;> exact hbyte _ (by omega) (by omega) h

theorem lt_of_mem_encode {text : String} {b : UInt8} (h : b ∈ encode text) : b.toNat < 0xf8 := by
  obtain ⟨c, -, hb⟩ := List.mem_flatMap.mp h
  exact (byte_of_mem_encodeChar hb).1

/-- A text without the character 0 has no byte 0. -/
theorem ne_zero_of_mem_encode {text : String} (hzero : '\x00' ∉ text.toList) {b : UInt8}
    (h : b ∈ encode text) : b ≠ 0 := by
  obtain ⟨c, hc, hb⟩ := List.mem_flatMap.mp h
  rintro rfl
  obtain ⟨-, hchar | hlarge⟩ := byte_of_mem_encodeChar hb
  · obtain rfl : c = '\x00' := Char.toNat_inj.mp hchar.symm
    exact hzero hc
  · exact absurd hlarge (by decide)

/-! ### Only texts are decoded -/

theorem toNat_char {n : Nat} (h : n < 0xd800 ∨ 0xdfff < n ∧ n < 0x110000) :
    (Char.ofNat n).toNat = n := by
  unfold Char.ofNat
  rw [dif_pos h]
  rfl

theorem exists_ofNat (b : UInt8) : ∃ n < 256, b = UInt8.ofNat n :=
  ⟨b.toNat, b.toNat_lt, UInt8.ofNat_toNat.symm⟩

/-- Within a character, the next byte is between its bounds, and ends it or leads to the next. -/
theorem exists_byte_of_scan {missing code low high : Nat} {bytes : Bytes} {cs : List Char}
    (h : scan (some ⟨missing, code, low, high⟩) bytes = cs.map some) :
    ∃ n rest, bytes = UInt8.ofNat n :: rest ∧ low ≤ n ∧ n ≤ high ∧
      if missing ≤ 1 then
        ∃ more, cs = Char.ofNat (code * 64 + n % 64) :: more ∧ scan none rest = more.map some
      else scan (some ⟨missing - 1, code * 64 + n % 64, 0x80, 0xbf⟩) rest = cs.map some := by
  cases bytes with
  | nil =>
    rw [scan] at h
    cases cs <;> cases h
  | cons b rest =>
    obtain ⟨n, hn, rfl⟩ := exists_ofNat b
    rw [scan_cons] at h
    simp only [step, toNat_ofNat hn] at h
    by_cases hbounds : low ≤ n ∧ n ≤ high
    · rw [if_pos hbounds] at h
      refine ⟨n, rest, rfl, hbounds.1, hbounds.2, ?_⟩
      split_ifs at h ⊢
      · cases cs with
        | nil => cases h
        | cons c more =>
          simp only [List.cons_append, List.nil_append, List.map_cons, List.cons.injEq,
            Option.some.injEq] at h
          exact ⟨more, by rw [h.1], h.2⟩
      · exact h
    · rw [if_neg hbounds] at h
      cases cs <;> cases h

/-- The bytes of a character, by its number. -/
theorem encodeChar_ofNat {n : Nat} (h : n < 0xd800 ∨ 0xdfff < n ∧ n < 0x110000) :
    String.utf8EncodeChar (Char.ofNat n) =
      if n ≤ 0x7f then [UInt8.ofNat n]
      else if n ≤ 0x7ff then [UInt8.ofNat (n / 64 % 32 + 0xc0), UInt8.ofNat (n % 64 + 0x80)]
      else if n ≤ 0xffff then
        [UInt8.ofNat (n / 4096 % 16 + 0xe0), UInt8.ofNat (n / 64 % 64 + 0x80),
          UInt8.ofNat (n % 64 + 0x80)]
      else
        [UInt8.ofNat (n / 262144 % 8 + 0xf0), UInt8.ofNat (n / 4096 % 64 + 0x80),
          UInt8.ofNat (n / 64 % 64 + 0x80), UInt8.ofNat (n % 64 + 0x80)] := by
  have hval : (Char.ofNat n).val.toNat = n := toNat_char h
  unfold String.utf8EncodeChar
  simp only [hval]

theorem step_fault {n : Nat} (hn : n < 256) (h : 0x80 ≤ n ∧ n < 0xc2 ∨ 0xf5 ≤ n) :
    step none (UInt8.ofNat n) = ([none], none) := by
  simp only [step, stepLead, lead, toNat_ofNat hn]
  rw [if_neg (by omega)]
  rcases h with h | h
  · rw [if_pos h.2]
  · rw [if_neg (by omega), if_neg (by omega), if_neg (by omega), if_neg (by omega)]

/-- Between characters, bytes without a fault begin with a character. -/
theorem exists_char_of_scan {b : UInt8} {rest : Bytes} {cs : List Char}
    (h : scan none (b :: rest) = cs.map some) :
    ∃ c more tail, cs = c :: more ∧ b :: rest = String.utf8EncodeChar c ++ tail ∧
      scan none tail = more.map some := by
  obtain ⟨n, hn, rfl⟩ := exists_ofNat b
  rw [scan_cons] at h
  by_cases hone : n < 0x80
  · rw [step_one hone] at h
    cases cs with
    | nil => cases h
    | cons c more =>
      simp only [List.cons_append, List.nil_append, List.map_cons, List.cons.injEq,
        Option.some.injEq] at h
      refine ⟨c, more, rest, rfl, ?_, h.2⟩
      rw [← h.1, encodeChar_ofNat (by omega), if_pos (by omega)]
      rfl
  by_cases hfault : n < 0xc2 ∨ 0xf5 ≤ n
  · rw [step_fault hn (by omega)] at h
    cases cs <;> cases h
  by_cases htwo : n < 0xe0
  · rw [step_two (by omega) htwo] at h
    obtain ⟨k, tail, rfl, hlow, hhigh, more, rfl, htail⟩ := exists_byte_of_scan h
    refine ⟨_, more, tail, rfl, ?_, htail⟩
    rw [encodeChar_ofNat (by omega), if_neg (by omega), if_pos (by omega)]
    simp only [List.cons_append, List.nil_append, List.cons.injEq, and_true]
    refine ⟨congrArg _ ?_, congrArg _ ?_⟩ <;> omega
  by_cases hthree : n < 0xf0
  · rw [step_three (by omega) hthree] at h
    obtain ⟨k₁, rest₁, rfl, hlow, hhigh, h₁⟩ := exists_byte_of_scan h
    obtain ⟨k₂, tail, rfl, hlow₂, hhigh₂, more, rfl, htail⟩ := exists_byte_of_scan h₁
    -- without these bounds the number could be that of fewer bytes, or of a surrogate
    have hsecond : 0x80 ≤ k₁ ∧ k₁ ≤ 0xbf ∧ (n = 0xe0 → 0xa0 ≤ k₁) ∧ (n = 0xed → k₁ ≤ 0x9f) := by
      split_ifs at hlow hhigh <;> omega
    refine ⟨_, more, tail, rfl, ?_, htail⟩
    rw [encodeChar_ofNat (by omega), if_neg (by omega), if_neg (by omega), if_pos (by omega)]
    simp only [List.cons_append, List.nil_append, List.cons.injEq, and_true]
    refine ⟨congrArg _ ?_, congrArg _ ?_, congrArg _ ?_⟩ <;> omega
  · rw [step_four (by omega) (by omega)] at h
    obtain ⟨k₁, rest₁, rfl, hlow, hhigh, h₁⟩ := exists_byte_of_scan h
    obtain ⟨k₂, rest₂, rfl, hlow₂, hhigh₂, h₂⟩ := exists_byte_of_scan h₁
    obtain ⟨k₃, tail, rfl, hlow₃, hhigh₃, more, rfl, htail⟩ := exists_byte_of_scan h₂
    have hsecond : 0x80 ≤ k₁ ∧ k₁ ≤ 0xbf ∧ (n = 0xf0 → 0x90 ≤ k₁) ∧ (n = 0xf4 → k₁ ≤ 0x8f) := by
      split_ifs at hlow hhigh <;> omega
    refine ⟨_, more, tail, rfl, ?_, htail⟩
    rw [encodeChar_ofNat (by omega), if_neg (by omega), if_neg (by omega), if_neg (by omega)]
    simp only [List.cons_append, List.nil_append, List.cons.injEq, and_true]
    refine ⟨congrArg _ ?_, congrArg _ ?_, congrArg _ ?_, congrArg _ ?_⟩ <;> omega

/-- Bytes without a fault are those of their characters. -/
theorem eq_encode_of_scan {bytes : Bytes} {cs : List Char} (h : scan none bytes = cs.map some) :
    bytes = cs.flatMap String.utf8EncodeChar := by
  induction cs generalizing bytes with
  | nil =>
    cases bytes with
    | nil => rfl
    | cons b rest =>
      obtain ⟨c, more, tail, hcs, -⟩ := exists_char_of_scan h
      cases hcs
  | cons c more ih =>
    cases bytes with
    | nil => cases h
    | cons b rest =>
      obtain ⟨c', more', tail, hcs, hbytes, htail⟩ := exists_char_of_scan h
      cases hcs
      rw [hbytes, List.flatMap_cons, ih htail]

theorem eq_map_some_of_mapM_id {α : Type} {items : List (Option α)} {results : List α}
    (h : items.mapM id = some results) : items = results.map some := by
  induction items generalizing results with
  | nil =>
    cases h
    rfl
  | cons item rest ih =>
    rw [List.mapM_cons] at h
    obtain ⟨a, ha, h⟩ := Option.bind_eq_some_iff.mp h
    obtain ⟨more, hmore, h⟩ := Option.bind_eq_some_iff.mp h
    cases h
    rw [List.map_cons, ih hmore, ← show item = some a from ha]

/-- Bytes are decoded exactly if they are those of a text. -/
theorem decode?_eq_some_iff {bytes : Bytes} {text : String} :
    decode? bytes = some text ↔ bytes = encode text := by
  constructor
  · intro h
    obtain ⟨cs, hcs, rfl⟩ := Option.map_eq_some_iff.mp h
    rw [encode, String.toList_ofList]
    exact eq_encode_of_scan (eq_map_some_of_mapM_id hcs)
  · rintro rfl
    exact decode?_encode text

theorem length_encode (text : String) : (encode text).length = size text := rfl

end TypedMemory.Utf8
