import TypedMemory.Proofs.Bytes
import TypedMemory.Proofs.Numeral
import TypedMemory.Proofs.Text.Parts
import TypedMemory.Text.Hex

/-!
# Addresses as they are typed in

An address is a hexadecimal numeral, with one mark of the base or none in front and blanks
around it (`Hex.IsAddress`).  Main statement: these texts and no others are read, as the
number of the numeral, if it is an address at all; what is written is read back
(`Hex.reads_exactly_addresses`).
-/

namespace TypedMemory.Hex

/-- What may stand in front of the numeral. -/
def marks : List (List Char) := [[], ['0', 'x'], ['0', 'X']]

/-- The text is a numeral for `n` behind a mark of the base, with blanks around it. -/
def IsAddress (text : String) (n : Nat) : Prop :=
  ∃ core mark numeral, Text.Trims text.toList core ∧ mark ∈ marks ∧ core = mark ++ numeral ∧
    Numeral.Reads 16 numeral n

variable {text : List Char} {n : Nat}

/-! ### The mark -/

/-- A numeral does not begin with a mark. -/
theorem dropMark_of_reads (h : Numeral.Reads 16 text n) : dropMark text = text := by
  have hmem : ∀ c ∈ text, c ≠ 'x' ∧ c ≠ 'X' := h.forall_mem (by decide) (by decide)
  unfold dropMark
  split
  next digits hlower =>
    cases Text.dropPrefix?_eq_some_iff.mp hlower
    exact absurd rfl (hmem 'x' (by simp)).1
  next =>
    cases hupper : Text.dropPrefix? ['0', 'X'] text with
    | none => rfl
    | some digits =>
      cases Text.dropPrefix?_eq_some_iff.mp hupper
      exact absurd rfl (hmem 'X' (by simp)).2

theorem exists_mark (text : List Char) : ∃ mark ∈ marks, text = mark ++ dropMark text := by
  unfold dropMark
  split
  next digits hlower =>
    exact ⟨['0', 'x'], by decide, Text.dropPrefix?_eq_some_iff.mp hlower⟩
  next =>
    cases hupper : Text.dropPrefix? ['0', 'X'] text with
    | none => exact ⟨[], by decide, rfl⟩
    | some digits => exact ⟨['0', 'X'], by decide, Text.dropPrefix?_eq_some_iff.mp hupper⟩

theorem dropMark_append {mark numeral : List Char} (hmark : mark ∈ marks)
    (h : Numeral.Reads 16 numeral n) : dropMark (mark ++ numeral) = numeral := by
  simp only [marks, List.mem_cons, List.not_mem_nil, or_false] at hmark
  rcases hmark with rfl | rfl | rfl
  · exact dropMark_of_reads h
  · rfl
  · rfl

theorem isAddress_iff {text : String} :
    IsAddress text n ↔ Numeral.Reads 16 (dropMark (Text.trim text.toList)) n := by
  constructor
  · rintro ⟨core, mark, numeral, hcore, hmark, rfl, hnumeral⟩
    rwa [hcore.trim_eq, dropMark_append hmark hnumeral]
  · intro h
    obtain ⟨mark, hmark, htext⟩ := exists_mark (Text.trim text.toList)
    exact ⟨_, mark, _, Text.trims_trim _, hmark, htext, h⟩

/-! ### Reading and writing -/

/-- A text is read as an address if it is one. -/
theorem toAddress_eq_ok_iff {text : String} {a : Address} :
    toAddress text = .ok a ↔ IsAddress text a.toNat := by
  have hparse : ∀ n, Numeral.parse 16 wordLimit (dropMark (Text.trim text.toList)) = .ok n ↔
      n < wordLimit ∧ IsAddress text n := by
    intro n
    rw [Numeral.parse_eq_ok_iff le_rfl (by decide) (by decide), isAddress_iff]
  unfold toAddress
  dsimp only
  split
  next n hn =>
    obtain ⟨hlt, hreads⟩ := (hparse n).mp hn
    rw [Except.ok.injEq]
    constructor
    · rintro rfl
      rwa [toNat_ofNat_of_lt hlt]
    · intro ha
      have heq := (hparse a.toNat).mpr ⟨a.toNat_lt, ha⟩
      rw [hn, Except.ok.injEq] at heq
      rw [heq, UInt64.ofNat_toNat]
  next fault hfault =>
    refine iff_of_false nofun fun ha => ?_
    cases hfault.symm.trans ((hparse a.toNat).mpr ⟨a.toNat_lt, ha⟩)

/-- Digits behind a mark of the base. -/
theorem isAddress_of_denotes {digits : String} (h : Numeral.Denotes 16 digits.toList n) :
    IsAddress ("0x" ++ digits) n := by
  have htext : ("0x" ++ digits).toList = ['0', 'x'] ++ digits.toList := String.toList_append
  refine ⟨_, ['0', 'x'], _, ?_, by decide, htext, h.reads⟩
  rw [htext]
  have hmark : ∀ c ∈ ['0', 'x'], Text.isBlank c = false :=
    List.forall_iff_forall_mem.mp (by decide)
  exact Text.trims_self (List.forall_mem_append.mpr ⟨hmark, h.forall_mem (by decide)⟩)

theorem toAddress_of_denotes {digits : String} {a : Address}
    (h : Numeral.Denotes 16 digits.toList a.toNat) : toAddress ("0x" ++ digits) = .ok a :=
  toAddress_eq_ok_iff.mpr (isAddress_of_denotes h)

theorem toAddress_address (a : Address) : toAddress (address a) = .ok a :=
  toAddress_of_denotes (Numeral.denotes_hexUpper a.toNat)

/-- The offset of a member is its sign and, in the form of an address, its distance. -/
theorem offset_eq (distance : Int) :
    offset distance =
      (if distance < 0 then "-" else "+") ++ ("0x" ++ Numeral.hexUpper distance.natAbs) := by
  unfold offset
  split <;> rfl

/-- Exactly the texts of addresses are read, and every address is read back from the text that it
is written as.  An offset is written as a sign and a text that is read as its distance. -/
theorem reads_exactly_addresses :
    (∀ (text : String) (a : Address), toAddress text = .ok a ↔ IsAddress text a.toNat) ∧
    (∀ a : Address, toAddress (address a) = .ok a) ∧
    ∀ distance : Int, -(offsetLimit : Int) ≤ distance → distance < offsetLimit →
      ∃ (magnitude : String) (a : Address),
        offset distance = (if distance < 0 then "-" else "+") ++ magnitude ∧
        toAddress magnitude = .ok a ∧ (a.toNat : Int) = |distance| := by
  refine ⟨fun text a => toAddress_eq_ok_iff, toAddress_address, fun distance hlow hhigh => ?_⟩
  have hlt : distance.natAbs < wordLimit := by
    have hlimits : 2 * offsetLimit = wordLimit := rfl
    omega
  have hvalue := toNat_ofNat_of_lt hlt
  refine ⟨"0x" ++ Numeral.hexUpper distance.natAbs, UInt64.ofNat distance.natAbs,
    offset_eq distance, toAddress_of_denotes ?_, ?_⟩
  · rw [hvalue]
    exact Numeral.denotes_hexUpper _
  · rw [hvalue, Int.natCast_natAbs]

/-- The lowest offset, and an address with a plus sign and zeros in front. -/
theorem reads_exactly_addresses_lowest :
    (∃ (magnitude : String) (a : Address),
      offset (-offsetLimit) = "-" ++ magnitude ∧ toAddress magnitude = .ok a ∧
        (a.toNat : Int) = offsetLimit) ∧
    IsAddress " 0X+00000000000000000000fF\n" 255 := by
  obtain ⟨hreads, -, hoffset⟩ := reads_exactly_addresses
  constructor
  · exact hoffset (-offsetLimit) le_rfl (by decide)
  · exact (hreads " 0X+00000000000000000000fF\n" 255).mp (by decide +kernel)

end TypedMemory.Hex
