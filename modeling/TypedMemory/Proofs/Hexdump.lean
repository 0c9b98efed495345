import TypedMemory.Command.Run
import TypedMemory.Proofs.Buffer
import TypedMemory.Proofs.Text.Hex

/-!
# Hexdumps read back

A line of a hexdump is read again without its bytes: the offset is in front of the colon
(`Hexdump.offset?`), and each column behind it shows a byte or is blank (`Hexdump.rowBytes`).
What stands behind the columns is not looked at, so it may be any text.

Main statement: the command fails for an address outside the snapshot, and else its lines
show all bytes of the window and no others, in order (`Command.shows_window`).
-/

namespace TypedMemory

namespace Numeral

variable {base n width : Nat} {fill : Char} {text : String}

theorem toList_padLeft : (padLeft fill width text).toList =
    List.replicate (width - text.toList.length) fill ++ text.toList := by
  rw [padLeft, String.toList_append, String.toList_ofList, String.length_toList]

theorem length_padLeft : (padLeft fill width text).toList.length =
    max width text.toList.length := by
  rw [toList_padLeft, List.length_append, List.length_replicate]
  omega

theorem denotes_padLeft (hpos : 0 < base) (h : Denotes base text.toList n) :
    Denotes base (padLeft '0' width text).toList n := by
  rw [toList_padLeft]
  exact h.zeros hpos _

theorem length_hexUpper_le (hn : n < 256) : (hexUpper n).toList.length ≤ 2 := by
  rw [hexUpper, String.toList_ofList, List.length_map, digits,
    Nat.length_toDigits_le_iff (by decide) (by decide)]
  exact hn

end Numeral

namespace Hexdump

variable {row bytes other : Bytes} {line : String} {ascii : Bool} {offset index count fuel : Nat}

/-! ### One line -/

/-- The number in front of the colon. -/
def offset? (line : String) : Option Nat :=
  (Hex.toAddress (String.ofList (line.toList.takeWhile (· ≠ ':')))).toOption.map UInt64.toNat

/-- The byte that is shown by two digits, none by blanks. -/
def cell? (text : List Char) : Option UInt8 :=
  (Numeral.parse 16 256 (text.take 2)).toOption.map UInt8.ofNat

/-- The bytes in the columns from `index` on.  The columns are three characters wide, and there is
a gap between the two groups. -/
def readColumns : (count index : Nat) → List Char → Bytes
  | 0, _, _ => []
  | count + 1, index, text =>
    let shown := text.drop (if index = groupLength then 1 else 0)
    (cell? shown).toList ++ readColumns count (index + 1) (shown.drop 3)

/-- The bytes in the columns of a line, which start behind the colon and a blank. -/
def rowBytes (line : String) : Bytes :=
  readColumns lineLength 0 ((line.toList.dropWhile (· ≠ ':')).drop 2)

/-- The three characters for a byte, or for the lack of one. -/
def slot : Option UInt8 → List Char
  | some b => (cell b).toList ++ [' ']
  | none => [' ', ' ', ' ']

theorem length_cell (b : UInt8) : (cell b).toList.length = 2 := by
  have hle := Numeral.length_hexUpper_le b.toNat_lt
  rw [cell, Numeral.length_padLeft]
  omega

theorem length_slot (shown : Option UInt8) : (slot shown).length = 3 := by
  cases shown with
  | none => rfl
  | some b => rw [slot, List.length_append, length_cell, List.length_singleton]

theorem cell?_slot (shown : Option UInt8) (rest : List Char) :
    cell? (slot shown ++ rest) = shown := by
  cases shown with
  | none => rfl
  | some b =>
    have hreads : Numeral.Denotes 16 (cell b).toList b.toNat :=
      Numeral.denotes_padLeft (by decide) (Numeral.denotes_hexUpper _)
    have hparse : Numeral.parse 16 256 (cell b).toList = .ok b.toNat :=
      (Numeral.parse_eq_ok_iff le_rfl (by decide) (by decide)).mpr ⟨b.toNat_lt, hreads.reads⟩
    rw [cell?, slot, List.append_assoc, ← length_cell b, List.take_left, hparse]
    show some (UInt8.ofNat b.toNat) = some b
    rw [UInt8.ofNat_toNat]

theorem toList_column (row : Bytes) (index : Nat) : (column row index).toList =
    (if index = groupLength then [' '] else []) ++ slot row[index]? := by
  have hgap : (if index = groupLength then " " else "").toList =
      if index = groupLength then [' '] else [] := by
    split <;> rfl
  unfold column
  cases row[index]? with
  | none =>
    rw [String.toList_append, hgap]
    rfl
  | some b =>
    rw [String.toList_append, String.toList_append, hgap, List.append_assoc]
    rfl

theorem drop_column (row : Bytes) (index : Nat) (rest : List Char) :
    ((column row index).toList ++ rest).drop (if index = groupLength then 1 else 0) =
      slot row[index]? ++ rest := by
  rw [toList_column]
  split <;> rfl

/-- The columns are read back, whatever stands behind them. -/
theorem readColumns_columns (row : Bytes) (count index : Nat) (rest : List Char) :
    readColumns count index
        ((List.range' index count).flatMap (fun i => (column row i).toList) ++ rest) =
      (row.drop index).take count := by
  induction count generalizing index with
  | zero => rw [readColumns, List.take_zero]
  | succ count ih =>
    have hdrop : ∀ more, (slot row[index]? ++ more).drop 3 = more := by
      intro more
      rw [← length_slot row[index]?, List.drop_left]
    rw [List.range'_succ, List.flatMap_cons, List.append_assoc, readColumns, drop_column,
      cell?_slot, hdrop, ih, List.drop_eq_getElem?_toList_append (i := index)]
    cases hrow : row[index]? with
    | some b => rfl
    | none =>
      have hend : row.length ≤ index + 1 := by
        have hlength := List.getElem?_eq_none_iff.mp hrow
        omega
      rw [List.drop_of_length_le hend, List.take_nil]
      rfl

/-- The text in front of the colon. -/
def offsetText (offset : Nat) : String :=
  "0x" ++ Numeral.padLeft '0' 3 (Numeral.hexUpper offset)

/-- Behind the offset come a colon and a blank, the columns, and perhaps more text. -/
theorem exists_lineText (offset : Nat) (row : Bytes) (ascii : Bool) :
    ∃ rest, (lineText offset row ascii).toList =
      (offsetText offset).toList ++ ':' :: ' ' ::
        ((List.range' 0 lineLength).flatMap (fun i => (column row i).toList) ++ rest) := by
  obtain ⟨tail, htail⟩ : ∃ tail, lineText offset row ascii =
      offsetText offset ++ ": " ++ String.join ((List.range lineLength).map (column row)) ++ tail :=
    ⟨_, rfl⟩
  refine ⟨tail.toList, ?_⟩
  rw [htail, String.toList_append, String.toList_append, String.toList_append, String.toList_join,
    List.flatMap_map, List.range_eq_range', List.append_assoc, List.append_assoc]
  rfl

theorem denotes_offset (offset : Nat) :
    Numeral.Denotes 16 (Numeral.padLeft '0' 3 (Numeral.hexUpper offset)).toList offset :=
  Numeral.denotes_padLeft (by decide) (Numeral.denotes_hexUpper offset)

/-- There is no colon in the offset. -/
theorem forall_mem_offset (offset : Nat) :
    ∀ c ∈ (offsetText offset).toList, decide (c ≠ ':') = true := by
  rw [offsetText, String.toList_append]
  have hmark : ∀ c ∈ "0x".toList, decide (c ≠ ':') = true :=
    List.forall_iff_forall_mem.mp (by decide)
  exact List.forall_mem_append.mpr ⟨hmark, (denotes_offset offset).forall_mem (by decide)⟩

/-- The offset of a line is read back. -/
theorem offset?_lineText (h : offset < wordLimit) (row : Bytes) (ascii : Bool) :
    offset? (lineText offset row ascii) = some offset := by
  obtain ⟨rest, hline⟩ := exists_lineText offset row ascii
  have hvalue := toNat_ofNat_of_lt h
  have hread : Hex.toAddress (offsetText offset) = .ok (UInt64.ofNat offset) := by
    refine Hex.toAddress_of_denotes ?_
    rw [hvalue]
    exact denotes_offset offset
  rw [offset?, hline, List.takeWhile_append_of_pos (forall_mem_offset offset),
    List.takeWhile_cons_of_neg (by decide), List.append_nil, String.ofList_toList, hread]
  exact congrArg some hvalue

/-- The bytes of a line are read back. -/
theorem rowBytes_lineText (h : row.length ≤ lineLength) (offset : Nat) (ascii : Bool) :
    rowBytes (lineText offset row ascii) = row := by
  obtain ⟨rest, hline⟩ := exists_lineText offset row ascii
  rw [rowBytes, hline, List.dropWhile_append_of_pos (forall_mem_offset offset),
    List.dropWhile_cons_of_neg (by decide)]
  show readColumns lineLength 0 (_ ++ rest) = row
  rw [readColumns_columns, List.drop_zero, List.take_of_length_le h]

/-! ### All lines -/

/-- Each sixteen bytes make a line, and so do those that are left. -/
theorem length_linesFrom (h : bytes.length ≤ fuel) :
    (linesFrom ascii fuel offset bytes).length = (bytes.length + 15) / 16 := by
  fun_induction linesFrom ascii fuel offset bytes with
  | case1 offset bytes => rw [Nat.le_zero.mp h, List.length_nil]
  | case2 => rfl
  | case3 fuel offset bytes hne ih =>
    have hpos : 0 < bytes.length := List.length_pos_iff.mpr hne
    have hdrop : (bytes.drop lineLength).length = bytes.length - 16 := List.length_drop
    rw [List.length_cons, ih (by omega), hdrop]
    omega

/-- All bytes are in the columns of the lines. -/
theorem flatMap_rowBytes_linesFrom (h : bytes.length ≤ fuel) :
    (linesFrom ascii fuel offset bytes).flatMap rowBytes = bytes := by
  fun_induction linesFrom ascii fuel offset bytes with
  | case1 offset bytes => exact (List.length_eq_zero_iff.mp (Nat.le_zero.mp h)).symm
  | case2 => rfl
  | case3 fuel offset bytes hne ih =>
    have hpos : 0 < bytes.length := List.length_pos_iff.mpr hne
    have hdrop : (bytes.drop lineLength).length = bytes.length - 16 := List.length_drop
    rw [List.flatMap_cons, rowBytes_lineText (List.length_take_le ..), ih (by omega),
      List.take_append_drop]

/-- The lines are sixteen bytes apart. -/
theorem exists_row_of_linesFrom {i : Nat}
    (h : (linesFrom ascii fuel offset bytes)[i]? = some line) :
    ∃ row, line = lineText (offset + lineLength * i) row ascii := by
  fun_induction linesFrom ascii fuel offset bytes generalizing i with
  | case1 => cases h
  | case2 => cases h
  | case3 fuel offset bytes hne ih =>
    cases i with
    | zero =>
      cases h
      exact ⟨_, rfl⟩
    | succ i =>
      obtain ⟨row, rfl⟩ := ih h
      refine ⟨row, ?_⟩
      rw [Nat.mul_succ, Nat.add_assoc, Nat.add_comm lineLength]

theorem length_lines (bytes : Bytes) (ascii : Bool) :
    (lines bytes ascii).length = (bytes.length + 15) / 16 :=
  length_linesFrom le_rfl

theorem flatMap_rowBytes_lines (bytes : Bytes) (ascii : Bool) :
    (lines bytes ascii).flatMap rowBytes = bytes :=
  flatMap_rowBytes_linesFrom le_rfl

theorem offset?_of_lines {i : Nat} (hlimit : bytes.length ≤ wordLimit)
    (h : (lines bytes ascii)[i]? = some line) : offset? line = some (lineLength * i) := by
  obtain ⟨row, rfl⟩ := exists_row_of_linesFrom h
  have hi : i < (bytes.length + 15) / 16 := by
    rw [← length_lines bytes ascii]
    exact (List.getElem?_eq_some_iff.mp h).1
  have hoffset : lineLength * i < bytes.length := by
    rw [lineLength]
    omega
  rw [Nat.zero_add]
  exact offset?_lineText (hoffset.trans_le hlimit) row ascii

/-- The lines tell which bytes they show, whether they have characters or not. -/
theorem eq_of_lines_eq {ascii' : Bool} (h : lines bytes ascii = lines other ascii') :
    bytes = other := by
  rw [← flatMap_rowBytes_lines bytes ascii, h, flatMap_rowBytes_lines]

end Hexdump

/-! ### The command -/

namespace Command

open Access Buffer

variable {read : String → Except FileFault Bytes} {path : String} {bytes : Bytes}
  {base address : Address}

theorem loadSnapshot_eq (hread : read path = .ok bytes) (base : Address) :
    loadSnapshot read path base = .ok ⟨base, bytes, []⟩ := by
  rw [loadSnapshot, contents, hread]
  rfl

/-- The number of bytes that are shown, of which there have to be as many in the snapshot. -/
def shownSize (base address : Address) (bytes : Bytes) (size : Nat) : Nat :=
  min size (base.toNat + bytes.length - address.toNat)

theorem shownSize_le (base address : Address) (bytes : Bytes) (size : Nat) :
    shownSize base address bytes size ≤ base.toNat + bytes.length - address.toNat :=
  min_le_right _ _

/-- The bytes that are shown. -/
def window (base address : Address) (bytes : Bytes) (size : Nat) : Bytes :=
  (bytes.drop (address.toNat - base.toNat)).take (shownSize base address bytes size)

theorem length_window (hlow : base.toNat ≤ address.toNat)
    (hhigh : address.toNat < base.toNat + bytes.length) (size : Nat) :
    (window base address bytes size).length = shownSize base address bytes size := by
  have hle := shownSize_le base address bytes size
  exact length_part (by omega)

theorem showBytes_of_outside (hread : read path = .ok bytes) (size : Nat) (ascii : Bool)
    (hout : ¬ (base.toNat ≤ address.toNat ∧ address.toNat < base.toNat + bytes.length)) :
    ∃ failure, showBytes read path address size base ascii = .error failure := by
  have hguard : address < base ∨ base.toNat + bytes.length ≤ address.toNat := by
    rw [UInt64.lt_iff_toNat_lt]
    omega
  rw [showBytes, loadSnapshot_eq hread]
  exact ⟨_, if_pos hguard⟩

theorem showBytes_of_inside (hread : read path = .ok bytes) (size : Nat) (ascii : Bool)
    (hlimit : base.toNat + bytes.length < wordLimit) (hlow : base.toNat ≤ address.toNat)
    (hhigh : address.toNat < base.toNat + bytes.length) :
    ∃ heading, showBytes read path address size base ascii =
      .ok (printed (heading :: "" :: Hexdump.lines (window base address bytes size) ascii)) := by
  let b : Buffer := ⟨base, bytes, []⟩
  have hguard : ¬ (address < base ∨ base.toNat + bytes.length ≤ address.toNat) := by
    rw [UInt64.lt_iff_toNat_lt]
    omega
  have hmapped : b.Mapped address.toNat (shownSize base address bytes size) := by
    have hle := shownSize_le base address bytes size
    have hbase : b.base.toNat = base.toNat := rfl
    have hend : b.limit = base.toNat + bytes.length := rfl
    exact ⟨hlow, by omega, by omega⟩
  have hlength := length_window hlow hhigh size
  have hyields : (readBytes address (shownSize base address bytes size)).Yields b
      (window base address bytes size) b :=
    readBytes_yields_iff.mpr ⟨rfl, hlength, hmapped.holds_part⟩
  refine ⟨bold ("Hexdump at " ++ Hex.address address ++ " (" ++
    Numeral.decimal (shownSize base address bytes size) ++ " bytes):"), ?_⟩
  rw [showBytes, loadSnapshot_eq hread]
  refine (if_neg hguard).trans ?_
  show ((eval (readBytes address (shownSize base address bytes size)) b).1.mapError _ >>= _) = _
  rw [hyields]
  rfl

/-- The command fails exactly for an address outside the snapshot.  Else it prints a heading and
the lines for the window, which is cut off at the end of the snapshot: a line for each sixteen
bytes, with its offset in front, and all bytes of the window in the columns.  So the lines tell
which bytes they show, whether they have characters or not. -/
theorem shows_window (hread : read path = .ok bytes)
    (hlimit : base.toNat + bytes.length < wordLimit) (address : Address) (size : Nat)
    (ascii : Bool) :
    ((run read (.hexdump path address size base ascii)).failure ≠ none ↔
      ¬ (base.toNat ≤ address.toNat ∧ address.toNat < base.toNat + bytes.length)) ∧
    (base.toNat ≤ address.toNat → address.toNat < base.toNat + bytes.length →
      ∃ heading lines,
        (run read (.hexdump path address size base ascii)).output =
          printed (heading :: "" :: lines) ∧
        lines = Hexdump.lines (window base address bytes size) ascii ∧
        lines.length = (shownSize base address bytes size + 15) / 16 ∧
        (∀ i line, lines[i]? = some line → Hexdump.offset? line = some (16 * i)) ∧
        lines.flatMap Hexdump.rowBytes = window base address bytes size) ∧
    ∀ (shown other : Bytes) (ascii' : Bool),
      Hexdump.lines shown ascii = Hexdump.lines other ascii' → shown = other := by
  refine ⟨?_, fun hlow hhigh => ?_, fun shown other ascii' h => Hexdump.eq_of_lines_eq h⟩
  · by_cases hinside : base.toNat ≤ address.toNat ∧ address.toNat < base.toNat + bytes.length
    · obtain ⟨heading, hshow⟩ :=
        showBytes_of_inside hread size ascii hlimit hinside.1 hinside.2
      rw [run, hshow]
      exact iff_of_false (fun h => h rfl) fun h => h hinside
    · obtain ⟨failure, hshow⟩ := showBytes_of_outside hread size ascii hinside
      rw [run, hshow]
      exact iff_of_true nofun hinside
  · obtain ⟨heading, hshow⟩ := showBytes_of_inside hread size ascii hlimit hlow hhigh
    have hlength := length_window hlow hhigh size
    have hfit : (window base address bytes size).length ≤ wordLimit := by
      have hle := shownSize_le base address bytes size
      omega
    refine ⟨heading, _, ?_, rfl, ?_, ?_, Hexdump.flatMap_rowBytes_lines _ ascii⟩
    · rw [run, hshow]
      rfl
    · rw [Hexdump.length_lines, hlength]
    · exact fun i line hline => Hexdump.offset?_of_lines hfit hline

/-- A window that is cut off two bytes behind its first line. -/
theorem shows_window_cut :
    let bytes := (List.range 20).map UInt8.ofNat
    let read : String → Except FileFault Bytes := fun _ => .ok bytes
    let result := run read (.hexdump "snapshot" 4098 64 4096 true)
    result.failure = none ∧
    (∃ heading lines, result.output = printed (heading :: "" :: lines) ∧ lines.length = 2 ∧
      lines.flatMap Hexdump.rowBytes = bytes.drop 2) ∧
    Hexdump.lines [0x41] true ≠ Hexdump.lines [0x42] false := by
  intro bytes read result
  have hread : read "snapshot" = .ok bytes := rfl
  have hlimit : (4096 : Address).toNat + bytes.length < wordLimit := by decide
  obtain ⟨hfails, hshows, hsame⟩ := shows_window hread hlimit 4098 64 true
  refine ⟨?_, ?_, fun h => absurd (hsame _ _ _ h) (by decide)⟩
  · by_contra hne
    exact hfails.mp hne (by decide)
  · obtain ⟨heading, lines, houtput, -, hlength, -, hbytes⟩ := hshows (by decide) (by decide)
    have hshown : shownSize 4096 4098 bytes 64 = 18 := by decide
    have hwindow : window 4096 4098 bytes 64 = bytes.drop 2 := by decide
    rw [hshown] at hlength
    rw [hwindow] at hbytes
    exact ⟨heading, lines, houtput, hlength, hbytes⟩

end Command

end TypedMemory
